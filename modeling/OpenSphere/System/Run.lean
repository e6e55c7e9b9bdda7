import Mathlib.Logic.Function.Basic

/-!
# Runs

A system takes one action after the other.  Every action is total: one that is
refused leaves the state as it is.  `run` is the state after a list of actions,
`Along` says that each action of the list meets a condition in the state it is
taken in, and `Along.invariant` turns a step lemma into a statement about runs.

A *keyed* system is one whose state is seen as a family of independent cases.
Each action touches the case of at most one key, and `Keyed.step` says by which
step of the case.  An invariant of one case then is an invariant of all cases,
whatever the other cases do in between.
-/

namespace System

variable {σ α : Type}

variable {perform : α → σ → σ} {as : List α} {s start : σ} {C : α → σ → Prop}

def run (perform : α → σ → σ) : List α → σ → σ
  | [], s => s
  | a :: as, s => run perform as (perform a s)

/-- Every action of the list meets the condition where it is taken. -/
def Along (perform : α → σ → σ) (C : α → σ → Prop) : List α → σ → Prop
  | [], _ => True
  | a :: as, s => C a s ∧ Along perform C as (perform a s)

instance Along.decidable {perform : α → σ → σ} {C : α → σ → Prop} [∀ a s, Decidable (C a s)] :
    ∀ (as : List α) (s : σ), Decidable (Along perform C as s)
  | [], _ => .isTrue True.intro
  | a :: as, s => @instDecidableAnd _ _ _ (Along.decidable as (perform a s))

theorem run_append (perform : α → σ → σ) (as bs : List α) (s : σ) :
    run perform (as ++ bs) s = run perform bs (run perform as s) := by
  induction as generalizing s with
  | nil => rfl
  | cons a as ih => exact ih (perform a s)

theorem Along.append {bs : List α} :
    Along perform C (as ++ bs) s ↔
      Along perform C as s ∧ Along perform C bs (run perform as s) := by
  induction as generalizing s with
  | nil => simp [Along, run]
  | cons a as ih => simp only [List.cons_append, Along, run, ih, and_assoc]

/-- A condition every action meets holds along every run. -/
theorem Along.trivial (h : ∀ a s, C a s) (as : List α) (s : σ) : Along perform C as s := by
  induction as generalizing s with
  | nil => exact True.intro
  | cons a as ih => exact ⟨h a s, ih (perform a s)⟩

/-- A condition on the actions alone holds along a run if each of them meets it. -/
theorem Along.of_forall {C : α → Prop}
    (h : ∀ a ∈ as, C a) (s : σ) : Along perform (fun a _ => C a) as s := by
  induction as generalizing s with
  | nil => exact True.intro
  | cons a as ih =>
      exact ⟨h a (List.mem_cons_self ..), ih (fun b hb => h b (List.mem_cons_of_mem _ hb)) _⟩

/-- What every conforming action preserves holds after every conforming run. -/
theorem Along.invariant {I : σ → Prop} (hstep : ∀ a s, I s → C a s → I (perform a s))
    (has : Along perform C as s) (hs : I s) : I (run perform as s) := by
  induction as generalizing s with
  | nil => exact hs
  | cons a as ih => exact ih has.2 (hstep a s hs has.1)

theorem run_invariant {I : σ → Prop}
    (hstep : ∀ a s, I s → I (perform a s)) (hs : I s) (as : List α) :
    I (run perform as s) :=
  Along.invariant (C := fun _ _ => True) (fun a s hi _ => hstep a s hi)
    (Along.trivial (fun _ _ => True.intro) as s) hs

/-- A relation between a state and a later one that every action keeps. -/
theorem run_relation {R : σ → σ → Prop} (hrefl : ∀ s, R s s)
    (htrans : ∀ {s t u}, R s t → R t u → R s u) (hstep : ∀ a s, R s (perform a s))
    (as : List α) (s : σ) : R s (run perform as s) := by
  induction as generalizing s with
  | nil => exact hrefl s
  | cons a as ih => exact htrans (hstep a s) (ih (perform a s))

/-! ## Places of a run -/

/-- The action at a place of a run, and the state it is taken in. -/
structure Taken (perform : α → σ → σ) (start : σ) (as : List α) (n : Nat) (a : α) (s : σ) :
    Prop where
  step : as[n]? = some a
  before : run perform (as.take n) start = s

/-- A place of a run is a place of every longer run. -/
theorem Taken.append {n : Nat} {a : α}
    (h : Taken perform start as n a s) (bs : List α) : Taken perform start (as ++ bs) n a s := by
  have hlt : n < as.length := (List.getElem?_eq_some_iff.mp h.step).1
  refine ⟨?_, ?_⟩
  · rw [List.getElem?_append_left hlt, h.step]
  · rw [List.take_append_of_le_length (Nat.le_of_lt hlt), h.before]

theorem Taken.last (perform : α → σ → σ) (start : σ) (as : List α) (a : α) :
    Taken perform start (as ++ [a]) as.length a (run perform as start) := by
  refine ⟨?_, ?_⟩
  · simp
  · rw [List.take_left]

/-- A place of the beginning of a run is a place of the run. -/
theorem Taken.of_take {n m : Nat} {a : α}
    (h : Taken perform start (as.take m) n a s) : n < m ∧ Taken perform start as n a s := by
  have hlt : n < (as.take m).length := (List.getElem?_eq_some_iff.mp h.step).1
  have hn : n < m := Nat.lt_of_lt_of_le hlt (List.length_take_le ..)
  have hlong := h.append (as.drop m)
  rw [List.take_append_drop] at hlong
  exact ⟨hn, hlong⟩

def Happens (perform : α → σ → σ) (start : σ) (as : List α) (n : Nat) (Q : α → σ → Prop) : Prop :=
  ∃ a s, Taken perform start as n a s ∧ Q a s

theorem Happens.append {n : Nat}
    {Q : α → σ → Prop} (h : Happens perform start as n Q) (bs : List α) :
    Happens perform start (as ++ bs) n Q := by
  obtain ⟨a, s, htaken, hq⟩ := h
  exact ⟨a, s, htaken.append bs, hq⟩

theorem Happens.last {a : α} {Q : α → σ → Prop}
    (h : Q a (run perform as start)) : Happens perform start (as ++ [a]) as.length Q :=
  ⟨a, _, .last perform start as a, h⟩

theorem Happens.of_take {n m : Nat} {Q : α → σ → Prop} (h : Happens perform start (as.take m) n Q) :
    n < m ∧ Happens perform start as n Q := by
  obtain ⟨a, s, htaken, hq⟩ := h
  exact ⟨htaken.of_take.1, a, s, htaken.of_take.2, hq⟩

theorem Along.get {n : Nat} {a : α}
    (h : Along perform C as s) (hn : as[n]? = some a) : C a (run perform (as.take n) s) := by
  induction as generalizing s n with
  | nil => simp at hn
  | cons b as ih =>
      cases n with
      | zero =>
          cases hn
          exact h.1
      | succ n => exact ih h.2 hn

theorem Along.of_get
    (h : ∀ n a, as[n]? = some a → C a (run perform (as.take n) s)) : Along perform C as s := by
  induction as generalizing s with
  | nil => exact True.intro
  | cons b as ih => exact ⟨h 0 b rfl, ih fun n a hn => h (n + 1) a hn⟩

theorem run_take_succ {n : Nat} {a : α} (hn : as[n]? = some a)
    (s : σ) : run perform (as.take (n + 1)) s = perform a (run perform (as.take n) s) := by
  rw [List.take_add_one, hn, run_append]
  rfl

/-- The state at a later place is reached from the state at an earlier one. -/
theorem run_take_of_le (perform : α → σ → σ) {n m : Nat} (h : n ≤ m) (as : List α) (s : σ) :
    run perform (as.take m) s = run perform ((as.take m).drop n) (run perform (as.take n) s) := by
  rw [← run_append]
  congr 1
  have hmin : (as.take m).take n = as.take n := by rw [List.take_take, Nat.min_eq_left h]
  rw [← hmin, List.take_append_drop]

/-! ## Keyed systems -/

variable {κ γ : Type} [DecidableEq κ]

def modify (v : κ → γ) (k : κ) (f : γ → γ) : κ → γ := Function.update v k (f (v k))

@[simp] theorem modify_self (v : κ → γ) (k : κ) (f : γ → γ) : modify v k f k = f (v k) :=
  Function.update_self ..

theorem modify_of_ne {v : κ → γ} {k j : κ} {f : γ → γ} (h : j ≠ k) : modify v k f j = v j :=
  Function.update_of_ne h ..

theorem modify_id (v : κ → γ) (k : κ) : modify v k (fun c => c) = v := Function.update_eq_self ..

@[simp] theorem modify_modify (v : κ → γ) (k : κ) (f g : γ → γ) :
    modify (modify v k f) k g = modify v k fun c => g (f c) := by
  rw [modify, modify_self, modify, Function.update_idem, modify]

/-- A family that differs in one case is a change of that case. -/
theorem eq_modify {v v' : κ → γ} {k : κ} {f : γ → γ} (hself : v' k = f (v k))
    (hother : ∀ j, j ≠ k → v' j = v j) : v' = modify v k f := by
  funext j
  by_cases hj : j = k
  · subst hj
    rw [modify_self, hself]
  · rw [modify_of_ne hj, hother j hj]

/-- The view of one state differs from that of another in at most one case,
which takes one step of `R`. -/
def OneCase (R : γ → γ → Prop) (v v' : κ → γ) : Prop :=
  v' = v ∨ ∃ k f, v' = modify v k f ∧ R (v k) (f (v k))

/-- A step lemma for one case is a step lemma for each of the cases. -/
theorem OneCase.forall {R : γ → γ → Prop} {I : γ → Prop} {v v' : κ → γ}
    (h : OneCase R v v') (hstep : ∀ c c', R c c' → I c → I c') (hv : ∀ k, I (v k)) :
    ∀ k, I (v' k) := by
  intro k
  rcases h with rfl | ⟨j, f, rfl, hR⟩
  · exact hv k
  · by_cases hk : k = j
    · subst hk
      rw [modify_self]
      exact hstep _ _ hR (hv k)
    · rw [modify_of_ne hk]
      exact hv k

/-- What one step does to a case it does to each of the cases, as long as doing
nothing counts. -/
theorem OneCase.relation {R Q : γ → γ → Prop} {v v' : κ → γ} (h : OneCase R v v')
    (hrefl : ∀ c, Q c c) (hstep : ∀ k c', R (v k) c' → Q (v k) c') : ∀ k, Q (v k) (v' k) := by
  intro k
  rcases h with rfl | ⟨j, f, rfl, hR⟩
  · exact hrefl _
  · by_cases hk : k = j
    · subst hk
      rw [modify_self]
      exact hstep _ _ hR
    · rw [modify_of_ne hk]
      exact hrefl _

end System
