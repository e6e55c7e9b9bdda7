import OpenSphere.Durable.Steps
import OpenSphere.Sql.Table

/-!
# The requests of a worker

Which requests the parts of `process` make.  All but the last two parts keep to the database, the
session, the clock and the live target; the owner is called in `call` alone, and asked for what has
become of a call in `settle` alone, always by the key of the operation.
-/

open Sql
open System (Program)

namespace Durable

variable {code token : String} {ownerCalled : Bool} {q : Query}

/-- A request that is none to the owner or the verifier and none for a claim. -/
def Ask.internal : Ask → Bool
  | .claim _ | .invoke .. | .reconcile .. | .verify .. => false
  | _ => true

def Ask.calm : Ask → Bool
  | .invoke .. => false
  | _ => true

/-- A request that neither claims an operation nor stores a phase. -/
def Ask.quiet : Ask → Bool
  | .claim _ | .setPhase .. => false
  | _ => true

def Query.Resumes (o : Operation) (q : Query) : Prop :=
  match q.ask with
  | .claim _ | .invoke .. => False
  | .reconcile route key target _ =>
      route = o.terms.ownerRoute ∧ key = o.terms.downstreamKey ∧ target = o.terms.target
  | _ => True

def Query.reconciles (q : Query) : Prop := ∃ route key target token, q.ask = .reconcile route key target token

def Query.verifies (q : Query) : Prop := ∃ id target receipt token, q.ask = .verify id target receipt token

abbrev Query.internal (q : Query) : Prop := q.ask.internal = true

/-- A request of a worker that is none to another service and stores no phase. -/
structure Query.Minor (c : Claimant) (q : Query) : Prop where
  worker : q.worker = c
  internal : q.internal
  quiet : q.ask.quiet = true

theorem Query.internal.resumes {o : Operation} (h : q.internal) : q.Resumes o := by
  obtain ⟨c, a⟩ := q
  cases a <;> first
    | exact True.intro
    | cases h

theorem Query.internal.calm (h : q.internal) : q.ask.calm = true := by
  obtain ⟨c, a⟩ := q
  cases a <;> first
    | rfl
    | cases h

theorem Query.internal.not_verifies (h : q.internal) : ¬ q.verifies := by
  rintro ⟨id, target, receipt, token, hask⟩
  rw [Query.internal, hask] at h
  cases h

theorem Query.Resumes.calm {o : Operation} (h : q.Resumes o) : q.ask.calm = true := by
  obtain ⟨c, a⟩ := q
  cases a <;> first
    | rfl
    | cases h

section

variable {c : Claimant} {o : Operation} {phase next : WorkerPhase}

theorem keeps_request {kind : Query → Prop} {a : Ask} (h : kind ⟨c, a⟩) :
    (request c a).Keeps kind fun _ => True :=
  Program.keeps_await h

theorem minor_request {a : Ask} (hinternal : a.internal = true) (hquiet : a.quiet = true) :
    (request c a).Keeps (Query.Minor c) fun _ => True :=
  keeps_request ⟨rfl, hinternal, hquiet⟩

theorem requireLease_minor : (requireLease c o).Keeps (Query.Minor c) fun _ => True := by
  unfold requireLease
  refine .seq (minor_request rfl rfl) fun lost => ?_
  split
  · trivial
  · refine .seq (minor_request rfl rfl) fun kept => ?_
    split
    · trivial
    · trivial

theorem requireLease_keeps : (requireLease c o).Keeps Query.internal fun _ => True :=
  requireLease_minor.imp (fun _ h => h.internal) fun _ h => h

theorem step_keeps {type : StepType} {status : StepStatus} :
    (step c o phase next type status code).Keeps Query.internal fun p =>
      p = next ∧ (phase = next ∨ next ∈ phase.transitions) := by
  unfold step
  refine .seq requireLease_keeps fun _ => ?_
  refine .bind (Program.keeps_lift fun p hp => transitionPhase_eq_ok hp) fun p hp => ?_
  refine .seq (keeps_request rfl) fun _ => .seq (keeps_request rfl) fun _ => ?_
  exact hp

theorem stepIf_keeps {due : Bool} {type : StepType} {status : StepStatus} :
    (stepIf c o due phase next type status code).Keeps Query.internal fun p =>
      p = next ∨ due = false ∧ p = phase := by
  unfold stepIf
  split
  · exact step_keeps.imp (fun _ h => h) fun _ h => .inl h.1
  next hdue => exact .inr ⟨Bool.not_eq_true _ ▸ hdue, rfl⟩

theorem stopIfExpired_keeps : (stopIfExpired c o phase).Keeps Query.internal fun _ => True := by
  unfold stopIfExpired
  refine .seq (keeps_request rfl) fun now => ?_
  split
  · exact .bind step_keeps fun _ _ => True.intro
  · trivial

theorem stopEarly_keeps : (stopEarly c o phase).Keeps Query.internal fun _ => True := by
  unfold stopEarly
  split
  · trivial
  · exact stopIfExpired_keeps

theorem delegate_minor (refused : Authorization) : ∀ as : List Approval,
    (delegate c o refused as).Keeps (Query.Minor c) fun _ => True
  | [] => trivial
  | a :: as => by
      rw [delegate]
      split
      · refine .seq (minor_request rfl rfl) fun session => .seq (minor_request rfl rfl) fun now => ?_
        split
        · split
          · trivial
          · exact delegate_minor refused as
        · exact delegate_minor refused as
      · exact delegate_minor refused as

theorem authorize_minor : (authorize c o).Keeps (Query.Minor c) fun _ => True := by
  unfold authorize
  refine .seq (minor_request rfl rfl) fun session => .seq (minor_request rfl rfl) fun approvals =>
    .seq (minor_request rfl rfl) fun now => ?_
  split
  · trivial
  · split
    · exact delegate_minor _ _
    · trivial

theorem authorize_keeps : (authorize c o).Keeps Query.internal fun _ => True :=
  authorize_minor.imp (fun _ h => h.internal) fun _ h => h

/-- An operation that may have been sent ends inconclusive if its execution is not authorized. -/
theorem refuse_keeps :
    (refuse c o phase next code).Keeps Query.internal fun x =>
      phase.sent = true → x.phase = .inconclusive := by
  unfold refuse
  split
  · exact .bind stepIf_keeps fun _ _ => .bind step_keeps fun _ hp _ => hp.1
  next hsent => exact .bind step_keeps fun _ _ h => absurd h hsent

theorem step_resumes {type : StepType} {status : StepStatus} :
    (step c o phase next type status code).Keeps (Query.Resumes o) fun _ => True :=
  step_keeps.imp (fun _ h => h.resumes) fun _ _ => True.intro

theorem conclude_keeps {receipt : Js.Value} :
    (conclude c o phase receipt token ownerCalled).Keeps (Query.Resumes o) fun _ => True := by
  unfold conclude
  refine .seq (requireLease_keeps.imp (fun _ h => h.resumes) fun _ h => h) fun _ => ?_
  refine .seq (keeps_request True.intro) fun verdict => ?_
  split
  · exact .seq step_resumes fun _ => True.intro
  · exact .seq step_resumes fun _ => True.intro
  · exact .seq step_resumes fun _ => True.intro

/-- What has become of a call is asked by the key of the operation. -/
theorem settle_keeps {receipt : Option Js.Value} :
    (settle c o phase receipt token ownerCalled).Keeps (Query.Resumes o) fun _ => True := by
  have hask : (request c (.reconcile o.terms.ownerRoute o.terms.downstreamKey o.terms.target token)).Keeps
      (Query.Resumes o) fun _ => True := keeps_request ⟨rfl, rfl, rfl⟩
  unfold settle
  dsimp only
  split
  · exact .seq step_resumes fun _ => conclude_keeps
  · split
    · refine .seq hask fun receipt => ?_
      split
      · exact .seq step_resumes fun _ => True.intro
      · exact conclude_keeps
    · refine .seq (stepIf_keeps.imp (fun _ h => h.resumes) fun _ _ => True.intro) fun _ => ?_
      refine .seq (requireLease_keeps.imp (fun _ h => h.resumes) fun _ h => h) fun _ => ?_
      refine .seq hask fun receipt => ?_
      split
      · exact .seq step_resumes fun _ => True.intro
      · exact .seq step_resumes fun _ => conclude_keeps

/-- Nothing is verified or returned before it is asked what has become of the call. -/
theorem settle_gated {receipt : Option Js.Value}
    {post : Outcome → Prop} (hne : phase ≠ .executing) :
    (settle c o phase receipt token ownerCalled).Gated Query.reconciles Query.verifies post := by
  unfold settle
  dsimp only
  rw [if_neg hne]
  split
  · exact Program.gated_await ⟨_, _, _, _, rfl⟩
  · refine Program.Keeps.gated (stepIf_keeps.imp (fun _ h => h.not_verifies) fun _ h => h) fun _ _ => ?_
    refine Program.Keeps.gated (requireLease_keeps.imp (fun _ h => h.not_verifies) fun _ h => h) fun _ _ => ?_
    exact Program.gated_await ⟨_, _, _, _, rfl⟩

end

/-! ## Runs that resume -/

section

variable {c : Claimant} {o : Operation}

theorem process_sent (h : o.phase.sent = true) : process c o =
    (authorize c o >>= fun
      | .refused next code => refuse c o o.phase next code
      | .allowed token actor => execute c o o.phase token actor) := by
  have hearly : (o.phase = .accepted || o.phase = .awaitingApproval) = false := by
    cases hp : o.phase <;> rw [hp] at h <;> first
      | rfl
      | cases h
  have hclaimed : o.phase ≠ .claimed := by
    rintro hp
    rw [hp] at h
    cases h
  unfold process stopEarly stepIf
  simp only [hearly, h, hclaimed, Bool.false_eq_true, decide_false, if_false, if_true, System.pure_bind] <;>
    rfl

theorem execute_sent {phase : WorkerPhase} {actor : Option String}
    (h : phase.sent = true) :
    (execute c o phase token actor).Keeps (Query.Resumes o) fun _ => True := by
  unfold execute
  refine .bind (stepIf_keeps.imp (fun _ h => h.resumes) fun _ h => h) fun p hp => ?_
  obtain rfl : p = phase := hp.elim (fun h => h) fun h => h.2
  split
  · exact .bind (step_keeps.imp (fun _ h => h.resumes) fun _ h => h) fun _ _ => True.intro
  · exact settle_keeps

theorem process_resumes (h : o.phase.sent = true) :
    (process c o).Keeps (Query.Resumes o) fun _ => True := by
  rw [process_sent h]
  refine .seq (authorize_keeps.imp (fun _ h => h.resumes) fun _ h => h) fun authorization => ?_
  cases authorization with
  | refused next code => exact refuse_keeps.imp (fun _ h => h.resumes) fun _ _ => True.intro
  | allowed token actor => exact execute_sent h

theorem sent_open {phase : WorkerPhase} (h : phase.sent = true) :
    ¬ (phase = .preflightBlocked ∨ .preflightBlocked ∈ phase.transitions) := by
  cases phase <;> cases h <;> decide

/-- A run that resumes an operation verifies nothing before it has asked for it, and returns before
that only if the execution is not authorized. -/
theorem process_gated (h : o.phase.sent = true) (hne : o.phase ≠ .executing) :
    (process c o).Gated Query.reconciles Query.verifies fun x => x.phase = .inconclusive := by
  rw [process_sent h]
  refine Program.Keeps.gated (authorize_keeps.imp (fun _ h => h.not_verifies) fun _ h => h) fun authorization _ => ?_
  cases authorization with
  | refused next code =>
      exact (refuse_keeps.imp (fun _ hq => hq.not_verifies) fun _ hx => hx h).gated_self
  | allowed token actor =>
      show (execute c o o.phase token actor).Gated _ _ _
      unfold execute
      refine Program.Keeps.gated (stepIf_keeps.imp (fun _ h => h.not_verifies) fun _ h => h) fun p hp => ?_
      obtain rfl : p = o.phase := hp.elim (fun h => h) fun h => h.2
      split
      · refine Program.Keeps.gated (step_keeps.imp (fun _ h => h.not_verifies) fun _ h => h) ?_
        exact fun _ hp => absurd hp.2 (sent_open h)
      · exact settle_gated hne

end

/-! ## What a claim returns -/

theorem workerOperation_eq_ok {r : Row} {o : Operation} (h : workerOperation r = .ok o) :
    o = ⟨r.operationId, workerPhase r.phase, r.terms⟩ := by
  unfold workerOperation at h
  split at h
  · exact (Except.ok.inj h).symm
  · cases h

theorem mapM_workerOperation : ∀ {rows : List Row} {os : List Operation},
    rows.mapM workerOperation = .ok os →
      os = rows.map fun r => ⟨r.operationId, workerPhase r.phase, r.terms⟩
  | [], os, h => (Except.ok.inj h).symm
  | r :: rows, os, h => by
      rw [List.mapM_cons] at h
      obtain ⟨o, ho, h⟩ := bind_eq_ok.mp h
      obtain ⟨os', hos, h⟩ := bind_eq_ok.mp h
      obtain rfl := Except.ok.inj h
      rw [workerOperation_eq_ok ho, mapM_workerOperation hos]
      rfl

end Durable
