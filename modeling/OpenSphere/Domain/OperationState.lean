import Mathlib.Data.List.Basic

/-!
# The operation lifecycle

`packages/domain/src/operation-state.mjs`: the closed list of operation states
and the table of allowed transitions.  A state change of the database is
compared with this table as a path, since one statement may take several
edges; `Path n s t` is a path of exactly `n` edges.
-/

namespace Domain

inductive OperationState where
  | planned
  | authorized
  | submitted
  | reconciling
  | applied
  | verified
  | failed
  | unknown
  | rolledBack
deriving DecidableEq, Repr

namespace OperationState

/-- The name of a state, as the modules and the database spell it. -/
def text : OperationState → String
  | planned => "Planned"
  | authorized => "Authorized"
  | submitted => "Submitted"
  | reconciling => "Reconciling"
  | applied => "Applied"
  | verified => "Verified"
  | failed => "Failed"
  | unknown => "Unknown"
  | rolledBack => "RolledBack"

/-- `operationStates`, in its order. -/
def operationStates : List OperationState :=
  [planned, authorized, submitted, reconciling, applied, verified, failed, unknown, rolledBack]

def transitions : OperationState → List OperationState
  | planned => [authorized, failed]
  | authorized => [submitted, failed]
  | submitted => [reconciling, failed, unknown]
  | reconciling => [applied, failed, unknown]
  | applied => [verified, failed, unknown, rolledBack]
  | verified => [rolledBack]
  | failed => [rolledBack]
  | unknown => [reconciling, applied, verified, failed, rolledBack]
  | rolledBack => []

end OperationState

open OperationState

/-- What `requireOperationTransition` throws. -/
inductive TransitionError where
  /-- `TypeError('operation state is outside the closed contract')`. -/
  | outsideContract
  /-- `operation transition is not allowed`. -/
  | notAllowed (current next : OperationState)
deriving DecidableEq, Repr

def stateOfText (s : String) : Option OperationState := operationStates.find? fun x => x.text == s

def requireOperationTransition (current next : String) : Except TransitionError OperationState :=
  match stateOfText current, stateOfText next with
  | some c, some n => if n ∈ transitions c then .ok n else .error (.notAllowed c n)
  | _, _ => .error .outsideContract

def CanTransition (s t : OperationState) : Prop :=
  requireOperationTransition s.text t.text = .ok t

@[simp] theorem stateOfText_text (s : OperationState) : stateOfText s.text = some s := by
  cases s <;> decide

/-- The check accepts exactly the edges of the table. -/
theorem canTransition_iff (s t : OperationState) : CanTransition s t ↔ t ∈ transitions s := by
  unfold CanTransition requireOperationTransition
  rw [stateOfText_text, stateOfText_text]
  by_cases h : t ∈ transitions s <;> simp [h]

instance (s t : OperationState) : Decidable (CanTransition s t) :=
  decidable_of_iff _ (canTransition_iff s t).symm

/-- A path of `n` allowed transitions. -/
inductive Path : Nat → OperationState → OperationState → Prop where
  | nil (s : OperationState) : Path 0 s s
  | cons {n : Nat} {s t u : OperationState} :
      CanTransition s t → Path n t u → Path (n + 1) s u

theorem Path.one {s t : OperationState} (h : CanTransition s t) : Path 1 s t :=
  .cons h (.nil t)

theorem Path.append {m n : Nat} {s t u : OperationState} (h : Path m s t) (h' : Path n t u) :
    Path (m + n) s u := by
  induction h with
  | nil s => rwa [Nat.zero_add]
  | @cons k s t v hedge _ ih =>
      rw [Nat.add_right_comm]
      exact .cons hedge (ih h')

/-- A state without an outgoing edge is never left. -/
theorem Path.terminal {n : Nat} {s t : OperationState} (hterm : transitions s = [])
    (h : Path n s t) : t = s := by
  cases h with
  | nil => rfl
  | cons hedge _ =>
      rw [canTransition_iff, hterm] at hedge
      cases hedge

end Domain
