import OpenSphere.Properties.Stranded
import OpenSphere.System.Alone

/-!
# Runs that end

A worker may be answered whatever the others please: no session, approvals that came and went, a
deadline that passes, an owner that fails.  As long as its lease is kept, `process` should carry every
operation that it claims to a terminal phase.  `process_completes_iff` says when it does.  The table of
steps takes no delegation and no missing key, and no edge leads from `ambiguous` to `inconclusive`.
-/

open System (Program exec_ask exec_await_bind)

namespace Durable

/-! ## Dependencies -/

/-- What the dependencies of a worker answer at a time. -/
structure Dependencies where
  session : Option Session
  approvals : List Approval
  now : Int
  live : Option Live
  owner : Except Failure Js.Members
  reconciled : Option Js.Members
  verdict : Verdict
  kept : ∀ e, owner = .error e → e.code ≠ "ClaimLeaseLost"

/-- Answers while the lease is kept, with the phase that is recorded.  The table of steps checks the
type, and only what has a digest is verified. -/
def serve (d : Dependencies) (q : Query) (recorded : WorkerPhase) :
    Except Failure q.Answer × WorkerPhase :=
  match q with
  | ⟨_, .claim _⟩ => (.ok [], recorded)
  | ⟨_, .leaseLost _⟩ => (.ok false, recorded)
  | ⟨_, .heartbeat _⟩ => (.ok true, recorded)
  | ⟨_, .appendStep _ type _ _ _⟩ => (if type.stored then .ok () else .error ⟨"", false⟩, recorded)
  | ⟨_, .setPhase _ phase⟩ =>
      if (phaseToDb phase).isSome then (.ok (), phase) else (.error ⟨"", false⟩, recorded)
  | ⟨_, .recordDownstreamIntent ..⟩ => (.ok (), recorded)
  | ⟨_, .getApprovals _⟩ => (.ok d.approvals, recorded)
  | ⟨_, .resolveSession ..⟩ => (.ok d.session, recorded)
  | ⟨_, .now⟩ => (.ok d.now, recorded)
  | ⟨_, .readAuthority ..⟩ => (.ok d.live, recorded)
  | ⟨_, .invoke ..⟩ => (d.owner.map .object, recorded)
  | ⟨_, .reconcile ..⟩ => (.ok (d.reconciled.map .object), recorded)
  | ⟨_, .verify _ _ (.object _) _⟩ => (.ok d.verdict, recorded)
  | ⟨_, .verify ..⟩ => (.error ⟨"", false⟩, recorded)

/-- A run returned, and the terminal phase that it returned is recorded. -/
def Completed (x : Except Failure Outcome × WorkerPhase) : Prop :=
  ∃ outcome, x.1 = .ok outcome ∧ outcome.phase ∈ WorkerPhase.terminal ∧ x.2 = outcome.phase

/-- A program completes, if what the dependencies answer at its requests is `ds`. -/
def Completes (p : Run Outcome) (ds : Nat → Dependencies) (recorded : WorkerPhase) : Prop :=
  Completed (p.exec serve ds recorded)

section

variable {c : Claimant} {o : Operation} {ds : Nat → Dependencies} {s phase next p : WorkerPhase}
  {type : StepType} {status : StepStatus} {code token : String} {f : WorkerPhase → Run Outcome}

/-! ## Steps -/

theorem completes_request {a : Ask} {x : a.Answer} {f : a.Answer → Run Outcome}
    (h : serve (ds 0) ⟨c, a⟩ s = (.ok x, p)) :
    Completes (request c a >>= f) ds s ↔ Completes (f x) (fun n => ds (n + 1)) p :=
  iff_of_eq (congrArg Completed (exec_await_bind h))

theorem completes_lease {f : Unit → Run Outcome} :
    Completes (requireLease c o >>= f) ds s ↔ Completes (f ()) (fun n => ds (n + 2)) s := Iff.rfl

theorem step_bind (h : transitionPhase phase next = .ok p) :
    step c o phase next type status code >>= f = (do
      requireLease c o
      request c (.appendStep o.operationId type p status code)
      request c (.setPhase o.operationId next)
      f p) := by
  simp only [step, h, System.bind_assoc, System.lift_ok_bind, System.pure_bind]

theorem completes_step (h : transitionPhase phase next = .ok p) (htype : type.stored = true)
    (hnext : (phaseToDb next).isSome = true) :
    Completes (step c o phase next type status code >>= f) ds s ↔
      Completes (f p) (fun n => ds (n + 4)) next := by
  have hset : serve (ds 3) ⟨c, .setPhase o.operationId next⟩ s = (.ok (), next) := if_pos hnext
  rw [step_bind h, completes_lease, completes_request (congrArg (·, s) (if_pos htype))]
  exact completes_request hset

theorem not_completes_refused {e : Failure} (h : transitionPhase phase next = .error e) :
    ¬ Completes (step c o phase next type status code >>= f) ds s := by
  unfold step
  rw [h]
  rintro ⟨outcome, hok, -⟩
  cases hok

theorem not_completes_unstored (h : transitionPhase phase next = .ok p) (htype : type.stored = false) :
    ¬ Completes (step c o phase next type status code >>= f) ds s := by
  rw [step_bind h, completes_lease]
  rintro ⟨outcome, hok, -⟩
  have happend : serve (ds 2) ⟨c, .appendStep o.operationId type p status code⟩ s =
      (.error ⟨"", false⟩, s) := congrArg (·, s) (if_neg (Bool.eq_false_iff.mp htype))
  change (Program.exec serve (Program.bind _ _) _ (serve (ds 2) _ s).2).1 = _ at hok
  rw [happend] at hok
  cases hok

/-- A step to a terminal phase ends a run. -/
theorem completes_last {called : Bool} {result : String} (h : transitionPhase phase next = .ok p)
    (htype : type.stored = true) (hnext : next ∈ WorkerPhase.terminal) :
    Completes (step c o phase next type status code >>= fun phase => pure ⟨phase, called, result⟩) ds s := by
  obtain ⟨rfl, -⟩ := transitionPhase_eq_ok h
  have hdb : (phaseToDb p).isSome = true := by revert hnext; cases p <;> decide
  exact (completes_step h htype hdb).mpr ⟨_, rfl, hnext, rfl⟩

theorem conclude_completes {ms : Js.Members} {called : Bool} :
    Completes (conclude c o .verifying (.object ms) token called) ds s := by
  show Completed (Program.exec serve (Program.bind (Program.pure (ds 2).verdict) _) _ s)
  cases (ds 2).verdict with
  | succeeded => exact completes_last rfl rfl (by decide)
  | failed => exact completes_last rfl rfl (by decide)
  | other => exact completes_last rfl rfl (by decide)

/-! ## The owner -/

theorem reconcile_completes {route key : String} {target : Js.Value} {f : Option Js.Value → Run Outcome}
    (hnone : ∀ ds, Completes (f none) ds s) (hsome : ∀ ms ds, Completes (f (some (.object ms))) ds s) :
    Completes (request c (.reconcile route key target token) >>= f) ds s := by
  refine (completes_request (x := (ds 0).reconciled.map Js.Value.object) rfl).mpr ?_
  cases (ds 0).reconciled with
  | none => exact hnone _
  | some ms => exact hsome ms _

theorem settle_completes {called : Bool}
    (h : phase = .ambiguous ∨ phase = .reconciling ∨ phase = .verifying) :
    Completes (settle c o phase none token called) ds s := by
  rcases h with rfl | rfl | rfl
  · exact (completes_step rfl rfl rfl).mpr (completes_lease.mpr (reconcile_completes
      (fun _ => completes_last rfl rfl (by decide))
      fun _ _ => (completes_step rfl rfl rfl).mpr conclude_completes))
  · exact completes_lease.mpr (reconcile_completes (fun _ => completes_last rfl rfl (by decide))
      fun _ _ => (completes_step rfl rfl rfl).mpr conclude_completes)
  · exact reconcile_completes (fun _ => completes_last rfl rfl (by decide)) fun _ _ => conclude_completes

/-- The call of the owner ends the run, with its receipt or its error. -/
theorem call_completes :
    Completes (call c o .executing token >>= fun
      | .inl outcome => pure outcome
      | .inr (phase, receipt) => settle c o phase receipt token true) ds s := by
  cases howner : (ds 0).owner with
  | ok ms =>
      have h : serve (ds 0) ⟨c, .invoke o.operationId o.terms.downstreamKey o.terms token⟩ s =
          (.ok (.object ms), s) := congrArg (fun x => (Except.map Js.Value.object x, s)) howner
      refine (iff_of_eq (congrArg Completed (exec_ask h))).mpr ?_
      show Completes (settle c o .executing (some (.object ms)) token true) (fun n => ds (n + 3)) s
      exact (completes_step rfl rfl rfl).mpr conclude_completes
  | error e =>
      have h : serve (ds 0) ⟨c, .invoke o.operationId o.terms.downstreamKey o.terms token⟩ s =
          (.error e, s) := congrArg (fun x => (Except.map Js.Value.object x, s)) howner
      refine (iff_of_eq (congrArg Completed (exec_ask h))).mpr ?_
      show Completes (ite (e.code = "ClaimLeaseLost") _ _ >>= _) _ s
      rw [if_neg ((ds 0).kept e howner)]
      split
      · rw [System.bind_assoc]
        exact (completes_step rfl rfl rfl).mpr (settle_completes (.inl rfl))
      · rw [System.bind_assoc]
        exact completes_last rfl rfl (by decide)

/-! ## The way to the owner -/

/-- The deadline has passed before anything was sent. -/
def Terms.late (t : Terms) (now : Int) : Bool := t.deadlineAt.any fun d => d / 1000 ≤ now

/-- The deadline ends a run, or the run goes on. -/
theorem completes_stop {f : Option WorkerPhase → Run Outcome}
    (h : transitionPhase phase .timedOut = .ok p)
    (hsome : f (some p) = pure ⟨p, false, "OperationDeadlineExceeded"⟩) :
    Completes (stopIfExpired c o phase >>= f) ds s ↔
      o.terms.late (ds 0).now = true ∨ Completes (f none) (fun n => ds (n + 1)) s := by
  unfold stopIfExpired
  rw [System.bind_assoc, completes_request (x := (ds 0).now) rfl]
  change Completes (ite (o.terms.late (ds 0).now = true) _ _ >>= f) _ s ↔ _
  by_cases hlate : o.terms.late (ds 0).now = true
  · refine iff_of_true ?_ (.inl hlate)
    rw [if_pos hlate]
    show Completes ((step c o phase .timedOut .terminal .blocked _ >>= fun p => pure (some p)) >>= f) _ s
    obtain ⟨rfl, -⟩ := transitionPhase_eq_ok h
    rw [System.bind_assoc, completes_step h rfl rfl, System.pure_bind, hsome]
    exact ⟨_, rfl, by decide, rfl⟩
  · rw [if_neg hlate, or_iff_right hlate]
    exact Iff.rfl

theorem mutate_completes :
    Completes (mutate c o .preflighting token >>= fun
      | .inl outcome => pure outcome
      | .inr (phase, receipt) => settle c o phase receipt token true) ds s := by
  unfold mutate
  rw [System.bind_assoc, completes_request (x := (ds 0).live) rfl]
  cases checkLivePreconditions o.terms.liveTarget (ds 0).live with
  | error code =>
      show Completes ((step c o _ _ _ _ _ >>= _) >>= _) _ s
      rw [System.bind_assoc]
      exact completes_last rfl rfl (by decide)
  | ok _ =>
      show Completes ((stopIfExpired c o _ >>= _) >>= _) _ s
      rw [System.bind_assoc, completes_stop rfl rfl]
      refine .inr ?_
      show Completes ((step c o _ _ _ _ _ >>= _) >>= _) _ s
      rw [System.bind_assoc, completes_step rfl rfl rfl]
      show Completes ((stopIfExpired c o _ >>= _) >>= _) _ _
      rw [System.bind_assoc, completes_stop rfl rfl]
      refine .inr ?_
      show Completes ((requireLease c o >>= _) >>= _) _ _
      rw [System.bind_assoc, completes_lease, System.bind_assoc, completes_request (x := ()) rfl]
      exact call_completes

/-! ## Authorization -/

/-- A refusal ends a run, except while the outcome of the owner is ambiguous. -/
theorem refuse_completes
    (h : phase = .preflighting ∨ phase = .ambiguous ∨ phase = .reconciling ∨ phase = .verifying)
    (hnext : next = .authorizationExpired ∨ next = .preflightBlocked) :
    Completes (refuse c o phase next code) ds s ↔ phase ≠ .ambiguous := by
  rcases h with rfl | rfl | rfl | rfl
  · refine iff_of_true ?_ (by decide)
    rcases hnext with rfl | rfl
    · exact completes_last rfl rfl (by decide)
    · exact completes_last rfl rfl (by decide)
  · exact iff_of_false (not_completes_refused rfl) (by decide)
  · exact iff_of_true (completes_last rfl rfl (by decide)) (by decide)
  · exact iff_of_true (completes_last rfl rfl (by decide)) (by decide)

/-- An execution that is allowed ends with a key that has the format. -/
theorem execute_completes
    (h : phase = .preflighting ∨ phase = .ambiguous ∨ phase = .reconciling ∨ phase = .verifying) :
    Completes (execute c o phase token none) ds s ↔
      downstreamKeyFormat o.terms.downstreamKey = true := by
  show Completes (ite ((!downstreamKeyFormat o.terms.downstreamKey) = true) _ _) ds s ↔ _
  cases hkey : downstreamKeyFormat o.terms.downstreamKey with
  | false =>
      refine iff_of_false ?_ Bool.false_ne_true
      rcases h with rfl | rfl | rfl | rfl
      · exact not_completes_unstored rfl rfl
      · exact not_completes_refused rfl
      · exact not_completes_refused rfl
      · exact not_completes_refused rfl
  | true =>
      refine iff_of_true ?_ rfl
      rcases h with rfl | rfl | rfl | rfl
      · exact mutate_completes
      · exact settle_completes (.inl rfl)
      · exact settle_completes (.inr (.inl rfl))
      · exact settle_completes (.inr (.inr rfl))

theorem not_completes_delegated {actor : String} :
    ¬ Completes (execute c o phase token (some actor)) ds s := by
  unfold execute stepIf
  exact not_completes_unstored (if_pos rfl) rfl

/-- Some independent approver has a session that may carry out the operation. -/
def Terms.delegated (t : Terms) (approvals : List Approval) (ds : Nat → Dependencies) : Prop :=
  ∃ i a, (approvals.filter (·.independent t))[i]? = some a ∧
    ∃ session, (ds (2 * i)).session = some session ∧ session.executes a t (ds (2 * i + 1)).now = true

theorem not_delegated_nil (t : Terms) (ds : Nat → Dependencies) : ¬ t.delegated [] ds := by
  rintro ⟨i, a, ha, -⟩
  cases ha

theorem delegated_cons {t : Terms} {a : Approval} {as : List Approval} (h : a.independent t = true) :
    t.delegated (a :: as) ds ↔
      (∃ session, (ds 0).session = some session ∧ session.executes a t (ds 1).now = true) ∨
        t.delegated as fun n => ds (n + 2) := by
  have hfilter : (a :: as).filter (·.independent t) = a :: as.filter (·.independent t) :=
    List.filter_cons_of_pos h
  unfold Terms.delegated
  rw [hfilter]
  constructor
  · rintro ⟨_ | i, b, hb, hsession⟩
    · cases hb
      exact .inl hsession
    · exact .inr ⟨i, b, hb, hsession⟩
  · rintro (hsession | ⟨i, b, hb, hsession⟩)
    · exact ⟨0, a, rfl, hsession⟩
    · exact ⟨i + 1, b, hb, hsession⟩

/-- A run whose approvers are asked goes on with the refusal, if none of them stands in. -/
theorem delegate_completes {refusal : Prop} {g : Authorization → Run Outcome}
    (hallowed : ∀ token actor ds, ¬ Completes (g (.allowed token (some actor))) ds s)
    (hrefused : ∀ ds, Completes (g (.refused next code)) ds s ↔ refusal) :
    ∀ (as : List Approval) (ds : Nat → Dependencies),
      Completes (delegate c o (.refused next code) as >>= g) ds s ↔
        refusal ∧ ¬ o.terms.delegated as ds
  | [], ds => (hrefused ds).trans (and_iff_left (not_delegated_nil _ _)).symm
  | a :: as, ds => by
      unfold delegate
      cases ha : a.independent o.terms with
      | false =>
          have hfilter : (a :: as).filter (·.independent o.terms) = as.filter (·.independent o.terms) :=
            List.filter_cons_of_neg (ha ▸ Bool.false_ne_true)
          rw [if_neg Bool.false_ne_true, delegate_completes hallowed hrefused as ds, Terms.delegated,
            Terms.delegated, hfilter]
      | true =>
          rw [if_pos rfl, System.bind_assoc, completes_request (x := (ds 0).session) rfl,
            System.bind_assoc, completes_request (x := (ds 1).now) rfl, delegated_cons ha]
          cases hsession : (ds 0).session with
          | none =>
              simp only [reduceCtorEq, false_and, exists_false, false_or]
              exact delegate_completes hallowed hrefused as _
          | some session =>
              dsimp only
              by_cases hexecutes : session.executes a o.terms (ds 1).now = true
              · rw [if_pos hexecutes]
                exact iff_of_false (hallowed _ _ _) fun h => h.2 (.inl ⟨session, rfl, hexecutes⟩)
              · simp only [Option.some.injEq, exists_eq_left', hexecutes, if_false, false_or,
                  Bool.false_eq_true]
                exact delegate_completes hallowed hrefused as _

/-- The approvals are enough for somebody else to carry out what a session may not. -/
def Terms.delegable (t : Terms) (approvals : List Approval) (code : String) : Bool :=
  ["AssuranceExpired", "RecentAssuranceRequired"].contains code &&
    1 ≤ requiredApprovals t.riskClass &&
    requiredApprovals t.riskClass ≤ (activeApprovers approvals).length

/-- When a run ends whose authorization is asked for. -/
def Terms.settles (t : Terms) (phase : WorkerPhase) (ds : Nat → Dependencies) : Prop :=
  match authorizeAtExecution t (ds 0).session (ds 1).approvals (ds 2).now with
  | .allowed .. => downstreamKeyFormat t.downstreamKey = true
  | .refused _ code => phase ≠ .ambiguous ∧
      ¬ (t.delegable (ds 1).approvals code = true ∧ t.delegated (ds 1).approvals fun n => ds (n + 3))

theorem refused_phase {t : Terms} {session : Option Session} {approvals : List Approval} {now : Int}
    (h : authorizeAtExecution t session approvals now = .refused next code) :
    next = .authorizationExpired ∨ next = .preflightBlocked := by
  unfold authorizeAtExecution at h
  split at h
  · cases h
    exact .inl rfl
  · split_ifs at h <;> cases h <;> first | exact .inl rfl | exact .inr rfl

theorem allowed_actor {t : Terms} {session : Option Session} {approvals : List Approval} {now : Int}
    {actor : Option String}
    (h : authorizeAtExecution t session approvals now = .allowed token actor) : actor = none := by
  unfold authorizeAtExecution at h
  split at h
  · cases h
  · split_ifs at h
    cases h
    rfl

theorem authorize_completes
    (h : phase = .preflighting ∨ phase = .ambiguous ∨ phase = .reconciling ∨ phase = .verifying) :
    Completes (authorize c o >>= fun
      | .refused next code => refuse c o phase next code
      | .allowed token actor => execute c o phase token actor) ds s ↔ o.terms.settles phase ds := by
  unfold authorize Terms.settles
  rw [System.bind_assoc, completes_request (x := (ds 0).session) rfl,
    System.bind_assoc, completes_request (x := (ds 1).approvals) rfl,
    System.bind_assoc, completes_request (x := (ds 2).now) rfl]
  cases heq : authorizeAtExecution o.terms (ds 0).session (ds 1).approvals (ds 2).now with
  | allowed token actor =>
      obtain rfl := allowed_actor heq
      exact execute_completes h
  | refused next code =>
      have hrefused (ds) : Completes (refuse c o phase next code) ds s ↔ phase ≠ .ambiguous :=
        refuse_completes h (refused_phase heq)
      change Completes (ite (o.terms.delegable (ds 1).approvals code = true) _ _ >>= _) _ s ↔ _
      by_cases hdelegable : o.terms.delegable (ds 1).approvals code = true
      · rw [if_pos hdelegable, delegate_completes (fun _ _ _ => not_completes_delegated) hrefused]
        simp only [hdelegable, true_and]
      · rw [if_neg hdelegable, System.pure_bind, hrefused]
        simp only [hdelegable, false_and, not_false_eq_true, and_true, Bool.false_eq_true]

/-! ## Runs -/

/-- When the run of an operation ends that was claimed. -/
def Operation.ends (o : Operation) (ds : Nat → Dependencies) : Prop :=
  if o.phase.sent then o.terms.settles o.phase ds
  else o.terms.late (ds 0).now = true ∨ o.terms.settles .preflighting fun n => ds (n + 5)

theorem run_completes (h : o.phase = .claimed ∨ o.phase = .ambiguous ∨ o.phase = .reconciling ∨
      o.phase = .verifying) :
    Completes (process c o) ds s ↔ o.ends ds := by
  obtain ⟨id, phase, terms⟩ := o
  rcases h with rfl | h
  · show Completes (stopIfExpired c ⟨id, .claimed, terms⟩ .claimed >>= _) ds s ↔ _
    rw [completes_stop rfl rfl]
    refine or_congr_right ?_
    show Completes (step c _ _ _ _ _ _ >>= _) _ s ↔ _
    rw [completes_step rfl rfl rfl]
    exact authorize_completes (.inl rfl)
  · rcases h with rfl | rfl | rfl
    · exact authorize_completes (.inr (.inl rfl))
    · exact authorize_completes (.inr (.inr (.inl rfl)))
    · exact authorize_completes (.inr (.inr (.inr rfl)))

end

theorem claimed_operation {w w' : Ledger} (hw : w.Distinct) {c : Claimant} {limit : Int}
    {rows : List Row} (hclaim : w.claim c limit = (.ok rows, w')) {r : Row} (hr : r ∈ rows)
    {o : Operation} (ho : workerOperation r = .ok o) :
    ∃ r₀ ∈ w.rows, r₀.phase.claimable = true ∧ o = ⟨r₀.operationId, workerPhase r₀.phase.claim, r₀.terms⟩ := by
  obtain ⟨r₀, hr₀, hphase, rfl⟩ := claimed_cases hw hclaim hr
  unfold workerOperation at ho
  split at ho
  · exact ⟨r₀, hr₀, hphase, (Except.ok.inj ho).symm⟩
  · cases ho

theorem claimable_cases {p : Phase} (h : p.claimable = true) :
    workerPhase p.claim = .claimed ∨ workerPhase p.claim = .ambiguous ∨
      workerPhase p.claim = .reconciling ∨ workerPhase p.claim = .verifying := by
  revert h
  cases p <;> decide

/-- **Runs that end.**  While its lease is kept, a worker carries an operation that it has claimed to a
terminal phase exactly if its deadline has passed before anything was sent; or its actor may carry it
out and its key has the format; or nobody may carry it out, and the outcome of its owner is not
ambiguous. -/
theorem process_completes_iff {w w' : Ledger} (hw : w.Distinct) {c : Claimant} {limit : Int}
    {rows : List Row} (hclaim : w.claim c limit = (.ok rows, w')) {r : Row} (hr : r ∈ rows)
    {o : Operation} (ho : workerOperation r = .ok o) (ds : Nat → Dependencies) :
    Completes (process c o) ds o.phase ↔ o.ends ds := by
  obtain ⟨r₀, -, hphase, rfl⟩ := claimed_operation hw hclaim hr ho
  exact run_completes (claimable_cases hphase)

namespace Demo

/-- The owner has a receipt, and the session is what it is. -/
def depending (session : Option Session) : Nat → Dependencies := fun _ =>
  { session, approvals := [], now := 0, live := none, owner := .ok .nil, reconciled := some .nil,
    verdict := .succeeded, kept := nofun }

theorem claimed_running : ∃ rows w' r o, (after 31000000).claim other 5 = (.ok rows, w') ∧ r ∈ rows ∧
    workerOperation r = .ok o ∧ o.phase = .ambiguous ∧
    authorizeAtExecution o.terms turn.session [] 0 = .allowed "token" none ∧
    downstreamKeyFormat o.terms.downstreamKey = true := by
  have hrun : ((after 31000000).expire.rows.filter (after 31000000).expire.candidate).length ≤
        claimLimit 5 ∧
      ((after 31000000).expire.rows.any (after 31000000).expire.candidate) ∧
      (after 31000000).rows.all fun r => decide (r.phase = .running) && supportedActions.contains r.terms.action &&
        decide (authorizeAtExecution r.terms turn.session [] 0 = .allowed "token" none) &&
        downstreamKeyFormat r.terms.downstreamKey := by
    decide
  have hdistinct : (after 31000000).Distinct :=
    distinct_advance (reach_sound 0 runningRun).distinct 31000000
  generalize after 31000000 = w at *
  obtain ⟨hlimit, hany, hall⟩ := hrun
  obtain ⟨rows, w', hclaim⟩ := exists_claim (c := other) w 5 (by decide)
  obtain ⟨r₁, hr₁, hcandidate⟩ := List.any_eq_true.mp hany
  have hselected := (mem_selected (distinct_expire hdistinct) hr₁ hlimit).mpr hcandidate
  obtain ⟨r, hr, -⟩ := List.mem_map.mp ((mem_claimed hclaim hr₁).mpr hselected)
  obtain ⟨r₀, hr₀, -, rfl⟩ := claimed_cases hdistinct hclaim hr
  have hrow := List.all_eq_true.mp hall r₀ hr₀
  simp only [Bool.and_eq_true, decide_eq_true_eq] at hrow
  obtain ⟨⟨⟨hphase, haction⟩, hallowed⟩, hkey⟩ := hrow
  refine ⟨rows, w', _, ⟨r₀.operationId, workerPhase r₀.phase.claim, r₀.terms⟩, hclaim, hr, if_pos haction, ?_,
    hallowed, hkey⟩
  rw [hphase]
  rfl

end Demo

theorem process_completes_running : ∃ w rows w' r o, w = (reach 0 Demo.runningRun).world.advance 31000000 ∧
    w.claim Demo.other 5 = (.ok rows, w') ∧ r ∈ rows ∧ workerOperation r = .ok o ∧
    Completes (process Demo.other o) (Demo.depending Demo.turn.session) o.phase := by
  have hdistinct : (Demo.after 31000000).Distinct :=
    distinct_advance (reach_sound 0 Demo.runningRun).distinct 31000000
  obtain ⟨rows, w', r, o, hclaim, hr, ho, hphase, hallowed, hkey⟩ := Demo.claimed_running
  refine ⟨_, rows, w', r, o, rfl, hclaim, hr, ho,
    (process_completes_iff hdistinct hclaim hr ho _).mpr ?_⟩
  have hsettles : o.terms.settles .ambiguous (Demo.depending Demo.turn.session) := by
    have hanswered : authorizeAtExecution o.terms (Demo.depending Demo.turn.session 0).session
        (Demo.depending Demo.turn.session 1).approvals (Demo.depending Demo.turn.session 2).now =
        .allowed "token" none := hallowed
    rw [Terms.settles, hanswered]
    exact hkey
  rw [Operation.ends, hphase]
  exact hsettles

/-- An operation whose worker has ended while it called the owner, and whose actor has logged out. -/
theorem process_stuck : ∃ w rows w' r o, w = (reach 0 Demo.runningRun).world.advance 31000000 ∧
    w.claim Demo.other 5 = (.ok rows, w') ∧ r ∈ rows ∧ workerOperation r = .ok o ∧
    ¬ Completes (process Demo.other o) (Demo.depending none) o.phase := by
  obtain ⟨rows, w', r, o, hclaim, hr, ho, hphase, -⟩ := Demo.claimed_running
  refine ⟨_, rows, w', r, o, rfl, hclaim, hr, ho, ?_⟩
  rw [run_completes (.inr (.inl hphase)), Operation.ends, hphase]
  exact fun h => h.1 rfl

end Durable
