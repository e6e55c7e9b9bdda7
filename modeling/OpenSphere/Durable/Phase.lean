import Mathlib.Data.List.Basic

/-!
# Phases of a durable operation

A worker names the phase of an operation in its own words, `WorkerPhase`, and the table
`console.module_operation` has a column of its own values, `Phase`.  `workerPhase` reads a column
and `phaseToDb` writes one; a worker never writes the phases in which an operation waits to be
claimed.

`transitionPhase` checks a change against the table of a worker.  `Change` is what a change of the
column may be.
-/

namespace Durable

/-- The column `phase`. -/
inductive Phase where
  | queued
  | awaitingApproval
  | claimed
  | preflighting
  | authorizationExpired
  | preflightBlocked
  | running
  | ambiguous
  | reconciling
  | verifying
  | succeeded
  | failed
  | verificationFailed
  | inconclusive
  | cancelled
  | timedOut
  | rollingBack
  | rolledBack
deriving DecidableEq, Repr

/-- The column `execution_state`. -/
inductive ExecutionState where
  | accepted
  | awaitingApproval
  | claimed
  | preflighting
  | authorizationExpired
  | preflightBlocked
  | executing
  | ambiguous
  | reconciling
  | complete
  | failed
  | cancelled
  | timedOut
  | rollingBack
  | rolledBack
deriving DecidableEq, Repr

/-- The column `verification_state`. -/
inductive VerificationState where
  | pending
  | verifying
  | succeeded
  | failed
  | inconclusive
  | notRequired
deriving DecidableEq, Repr

inductive WorkerPhase where
  | accepted
  | awaitingApproval
  | claimed
  | preflighting
  | executing
  | ambiguous
  | reconciling
  | verifying
  | rollingBack
  | succeeded
  | failed
  | verificationFailed
  | inconclusive
  | authorizationExpired
  | preflightBlocked
  | cancelled
  | timedOut
  | rolledBack
  /-- What `Running` is read as.  No transition leaves it. -/
  | running
deriving DecidableEq, Repr

def WorkerPhase.terminal : List WorkerPhase :=
  [.succeeded, .failed, .verificationFailed, .inconclusive, .authorizationExpired, .preflightBlocked,
    .cancelled, .timedOut, .rolledBack]

def WorkerPhase.transitions : WorkerPhase → List WorkerPhase
  | .accepted => [.awaitingApproval, .claimed, .cancelled, .timedOut]
  | .awaitingApproval => [.claimed, .cancelled, .timedOut]
  | .claimed => [.preflighting, .timedOut]
  | .preflighting => [.executing, .authorizationExpired, .preflightBlocked, .timedOut]
  | .executing => [.verifying, .ambiguous, .failed, .timedOut]
  | .ambiguous => [.reconciling, .failed, .timedOut]
  | .reconciling => [.verifying, .failed, .inconclusive, .timedOut]
  | .verifying => [.succeeded, .verificationFailed, .inconclusive, .rollingBack, .timedOut]
  | .rollingBack => [.rolledBack, .failed, .inconclusive]
  | _ => []

structure Failure where
  code : String
  /-- `error.ambiguous === true`. -/
  ambiguous : Bool
deriving DecidableEq, Repr

def transitionPhase (current next : WorkerPhase) : Except Failure WorkerPhase :=
  if current = next then .ok current
  else if WorkerPhase.terminal.contains current || !(current.transitions.contains next) then
    .error ⟨"", false⟩
  else .ok next

/-- The phase that `workerOperation` reads off a row. -/
def workerPhase : Phase → WorkerPhase
  | .queued => .accepted
  | .awaitingApproval => .awaitingApproval
  | .claimed => .claimed
  | .preflighting => .preflighting
  | .authorizationExpired => .authorizationExpired
  | .preflightBlocked => .preflightBlocked
  | .running => .running
  | .ambiguous => .ambiguous
  | .reconciling => .reconciling
  | .verifying => .verifying
  | .succeeded => .succeeded
  | .failed => .failed
  | .verificationFailed => .verificationFailed
  | .inconclusive => .inconclusive
  | .cancelled => .cancelled
  | .timedOut => .timedOut
  | .rollingBack => .rollingBack
  | .rolledBack => .rolledBack

def phaseToDb : WorkerPhase → Option (Phase × ExecutionState)
  | .claimed => some (.claimed, .claimed)
  | .preflighting => some (.preflighting, .preflighting)
  | .authorizationExpired => some (.authorizationExpired, .authorizationExpired)
  | .preflightBlocked => some (.preflightBlocked, .preflightBlocked)
  | .executing => some (.running, .executing)
  | .ambiguous => some (.ambiguous, .ambiguous)
  | .reconciling => some (.reconciling, .reconciling)
  | .verifying => some (.verifying, .complete)
  | .succeeded => some (.succeeded, .complete)
  | .failed => some (.failed, .failed)
  | .verificationFailed => some (.verificationFailed, .complete)
  | .inconclusive => some (.inconclusive, .complete)
  | .timedOut => some (.timedOut, .timedOut)
  | .rollingBack => some (.rollingBack, .rollingBack)
  | .rolledBack => some (.rolledBack, .rolledBack)
  | .cancelled => some (.cancelled, .cancelled)
  | .accepted | .awaitingApproval | .running => none

/-- The `verification_state` that comes with a phase. -/
def verificationOf : WorkerPhase → Option VerificationState
  | .verifying => some .verifying
  | .succeeded => some .succeeded
  | .verificationFailed => some .failed
  | .inconclusive => some .inconclusive
  | _ => none

/-- A call of the owner may have happened: `resumingUncertainOwnerCall`. -/
def WorkerPhase.sent : WorkerPhase → Bool
  | .executing | .ambiguous | .reconciling | .verifying => true
  | _ => false

def Phase.expires : Phase → Bool
  | .queued | .awaitingApproval | .claimed | .preflighting => true
  | _ => false

def Phase.claimable : Phase → Bool
  | .queued | .running | .ambiguous | .reconciling | .verifying => true
  | _ => false

/-- The phases in which a call of the owner may have happened and has not been settled. -/
def Phase.unsettled : Phase → Bool
  | .running | .ambiguous | .reconciling | .verifying => true
  | _ => false

def Phase.heartless : Phase → Bool
  | .succeeded | .failed | .verificationFailed | .cancelled | .timedOut | .rolledBack => true
  | _ => false

def Phase.final : Phase → Bool
  | .timedOut | .succeeded | .failed | .verificationFailed | .inconclusive | .authorizationExpired
  | .preflightBlocked | .cancelled | .rolledBack => true
  | _ => false

/-- What may have been sent is claimed again, and does not expire. -/
theorem Phase.unsettled_cases {p : Phase} (h : p.unsettled = true) :
    p.claimable = true ∧ p.expires = false ∧ p.final = false := by
  cases p <;> cases h <;> exact ⟨rfl, rfl, rfl⟩

/-- A change of the column `phase`. -/
inductive Change : Phase → Phase → Prop where
  | same (p : Phase) : Change p p
  /-- An edge of `PHASE_TRANSITIONS`, read through `PHASE_TO_DB`. -/
  | edge {current next : WorkerPhase} {p q : Phase} (hnext : next ∈ current.transitions)
      (hcurrent : (phaseToDb current).map Prod.fst = some p)
      (hq : (phaseToDb next).map Prod.fst = some q) : Change p q
  /-- A claim takes an operation over. -/
  | claimed : Change .queued .claimed
  | taken : Change .running .ambiguous
  /-- A claim expires an operation. -/
  | expired {p : Phase} (h : p.expires = true) : Change p .timedOut
  /-- `queue` releases an approved operation. -/
  | released : Change .awaitingApproval .queued

theorem edge_open {current : WorkerPhase} {p : Phase} (hne : current.transitions ≠ [])
    (h : (phaseToDb current).map Prod.fst = some p) : p.final = false := by
  cases current <;> simp [WorkerPhase.transitions, phaseToDb] at hne h <;> subst h <;> rfl

theorem Change.final {p q : Phase} (h : Change p q) (hp : p.final = true) : q = p := by
  cases h with
  | same => rfl
  | edge hnext hcurrent hq =>
      have hopen := edge_open (List.ne_nil_of_mem hnext) hcurrent
      rw [hp] at hopen
      cases hopen
  | claimed => cases hp
  | taken => cases hp
  | expired h => cases p <;> cases h <;> cases hp
  | released => cases hp

theorem transitionPhase_eq_ok {current next p : WorkerPhase} (h : transitionPhase current next = .ok p) :
    p = next ∧ (current = next ∨ next ∈ current.transitions) := by
  unfold transitionPhase at h
  split at h
  next heq => exact ⟨(Except.ok.inj h).symm.trans heq, .inl heq⟩
  next =>
    split at h
    · cases h
    next hcheck =>
      simp only [Bool.or_eq_true, Bool.not_eq_true', not_or, Bool.not_eq_false,
        List.contains_iff_mem] at hcheck
      exact ⟨(Except.ok.inj h).symm, .inr hcheck.2⟩

/-- What a worker may store over the phase that it has read. -/
theorem Change.of_transition {current next : WorkerPhase} {p q : Phase}
    (h : current = next ∨ next ∈ current.transitions)
    (hcurrent : (phaseToDb current).map Prod.fst = some p)
    (hq : (phaseToDb next).map Prod.fst = some q) : Change p q := by
  rcases h with rfl | hnext
  · obtain rfl := Option.some.inj (hcurrent.symm.trans hq)
    exact .same p
  · exact .edge hnext hcurrent hq

end Durable
