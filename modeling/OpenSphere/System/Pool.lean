import Mathlib.Algebra.GroupWithZero.Nat
import Mathlib.Data.List.InsertIdx
import OpenSphere.System.Program
import OpenSphere.System.Run

/-!
# Pools of programs

Programs that are under way at the same time, in a world they share.  A move starts a
program, answers the next request of one, ends one with its process, or changes the world
from outside.  The programs may be those of several processes.

`perform_cases` says what a move can do.  `Pool.Sound.perform` is the rule for programs that
keep to a discipline: if what one may do is what the others rely on, then all of them stay safe
in every run.
-/

namespace System

variable {ε Q E σ α τ ι : Type} {A : Q → Type}

structure Task (ε Q : Type) (A : Q → Type) (α τ : Type) where
  tag : τ
  rest : Program ε Q A α

def Task.result (t : Task ε Q A α τ) : Option (Except ε α) :=
  match t.rest with
  | .pure x => some (.ok x)
  | .throw e => some (.error e)
  | .ask _ _ => none

structure Pool (ε Q : Type) (A : Q → Type) (α τ σ : Type) where
  world : σ
  tasks : List (Task ε Q A α τ)

inductive Move (τ E ι : Type) where
  | start (t : τ)
  /-- The next request of a program is answered. -/
  | step (i : Nat) (e : E)
  /-- A program ends with its process. -/
  | crash (i : Nat)
  /-- The world changes from outside. -/
  | outside (x : ι)

/-- How the programs of a pool run. -/
structure Setting (ε Q : Type) (A : Q → Type) (α τ σ E ι : Type) where
  program : τ → Program ε Q A α
  answer : E → (q : Q) → σ → Except ε (A q) × σ
  change : ι → σ → σ

variable {S : Setting ε Q A α τ σ E ι} {s : Pool ε Q A α τ σ}

def Pool.perform (S : Setting ε Q A α τ σ E ι) : Move τ E ι → Pool ε Q A α τ σ → Pool ε Q A α τ σ
  | .start t, s => { s with tasks := s.tasks ++ [⟨t, S.program t⟩] }
  | .step i e, s =>
      match s.tasks[i]? with
      | some ⟨t, .ask q next⟩ => {
          world := (S.answer e q s.world).2
          tasks := s.tasks.set i ⟨t, next (S.answer e q s.world).1⟩ }
      | _ => s
  | .crash i, s => { s with tasks := s.tasks.eraseIdx i }
  | .outside x, s => { s with world := S.change x s.world }

theorem Pool.step_eq {i : Nat} {t : τ} {q : Q} {next : Except ε (A q) → Program ε Q A α}
    (h : s.tasks[i]? = some ⟨t, .ask q next⟩) (e : E) :
    s.perform S (.step i e) = {
      world := (S.answer e q s.world).2
      tasks := s.tasks.set i ⟨t, next (S.answer e q s.world).1⟩ } := by
  simp only [Pool.perform, h]

inductive Pool.Performs (S : Setting ε Q A α τ σ E ι) (s : Pool ε Q A α τ σ) :
    Move τ E ι → Pool ε Q A α τ σ → Prop where
  /-- There is nothing to answer. -/
  | idle (i : Nat) (e : E) : Pool.Performs S s (.step i e) s
  | start (t : τ) : Pool.Performs S s (.start t) ⟨s.world, s.tasks ++ [⟨t, S.program t⟩]⟩
  | step (i : Nat) (e : E) (t : τ) (q : Q) (next : Except ε (A q) → Program ε Q A α) :
      s.tasks[i]? = some ⟨t, .ask q next⟩ →
      Pool.Performs S s (.step i e)
        ⟨(S.answer e q s.world).2, s.tasks.set i ⟨t, next (S.answer e q s.world).1⟩⟩
  | crash (i : Nat) : Pool.Performs S s (.crash i) ⟨s.world, s.tasks.eraseIdx i⟩
  | outside (x : ι) : Pool.Performs S s (.outside x) ⟨S.change x s.world, s.tasks⟩

theorem Pool.perform_cases (S : Setting ε Q A α τ σ E ι) (s : Pool ε Q A α τ σ)
    (m : Move τ E ι) : s.Performs S m (s.perform S m) := by
  cases m with
  | start t => exact .start t
  | step i e =>
      rw [Pool.perform]
      split
      next t q next h => exact .step i e t q next h
      next => exact .idle i e
  | crash i => exact .crash i
  | outside x => exact .outside x

/-- What a move leaves of the world: as it was, after an answer, or after a change from outside. -/
theorem Pool.perform_world {R : σ → Prop} (s : Pool ε Q A α τ σ) (hsame : R s.world)
    (hanswer : ∀ e t q next, ⟨t, .ask q next⟩ ∈ s.tasks → R (S.answer e q s.world).2)
    (hchange : ∀ x, R (S.change x s.world)) (m : Move τ E ι) : R (s.perform S m).world := by
  have hcases := s.perform_cases S m
  generalize s.perform S m = s' at hcases ⊢
  cases hcases with
  | idle | start | crash => exact hsame
  | step i e t q next hi => exact hanswer e t q next (List.mem_of_getElem? hi)
  | outside x => exact hchange x

theorem mem_set_cases {l : List α} {i : Nat} {x y : α} (h : y ∈ l.set i x) : y = x ∨ y ∈ l :=
  (List.mem_or_eq_of_mem_set h).symm

/-- How many of the programs satisfy a condition after one of them went on. -/
theorem countP_set_add {l : List α} {i : Nat} {x : α} (hi : l[i]? = some x) (y : α)
    (p : α → Bool) : (l.set i y).countP p + (p x).toNat = l.countP p + (p y).toNat := by
  induction l generalizing i with
  | nil => simp at hi
  | cons z l ih =>
      cases i with
      | zero =>
          simp only [List.getElem?_cons_zero, Option.some.injEq] at hi
          subst hi
          simp only [List.set_cons_zero, List.countP_cons]
          cases p y <;> cases p z <;> simp
      | succ i =>
          simp only [List.getElem?_cons_succ] at hi
          have hrest := ih hi
          simp only [List.set_cons_succ, List.countP_cons]
          omega

/-! ## Programs that keep to a discipline -/

def Move.Allowed (D : Discipline E Q σ) (m : Move τ E ι) (s : Pool ε Q A α τ σ) : Prop :=
  match m with
  | .step i e => ∀ t q next, s.tasks[i]? = some ⟨t, .ask q next⟩ → D.allowed e q s.world
  | _ => True

/-- What one program may do is what the others rely on, and so is what happens from outside.
What a program ends with stays so. -/
structure Setting.Ensures (S : Setting ε Q A α τ σ E ι) (D : Discipline E Q σ)
    (post : τ → Except ε α → σ → Prop) : Prop where
  closed : D.Closed
  stable : ∀ {t r w w'}, D.rely w w' → post t r w → post t r w'
  program : ∀ t w, D.valid w → Safe S.answer D (post t) (S.program t) w
  change : ∀ x w, D.valid w → D.valid (S.change x w) ∧ D.guarantee w (S.change x w)

structure Pool.Ensured (S : Setting ε Q A α τ σ E ι) (D : Discipline E Q σ)
    (post : τ → Except ε α → σ → Prop) (s : Pool ε Q A α τ σ) : Prop where
  world : D.valid s.world
  tasks : ∀ task ∈ s.tasks, Safe S.answer D (post task.tag) task.rest s.world

variable {D : Discipline E Q σ} {post : τ → Except ε α → σ → Prop}

theorem Pool.Ensured.returned (h : s.Ensured S D post) {t : τ} {x : α}
    (hmem : ⟨t, .pure x⟩ ∈ s.tasks) : post t (.ok x) s.world :=
  safe_pure.mp (h.tasks _ hmem)

/-- A move that is allowed leaves every program safe, and does to the world what a program may
do. -/
theorem Pool.Ensured.perform (hS : S.Ensures D post) (h : s.Ensured S D post) {m : Move τ E ι}
    (hm : m.Allowed D s) :
    (s.perform S m).Ensured S D post ∧
      ((s.perform S m).world = s.world ∨ D.guarantee s.world (s.perform S m).world) := by
  have hlater : ∀ {w'}, D.guarantee s.world w' → ∀ task ∈ s.tasks,
      Safe S.answer D (post task.tag) task.rest w' :=
    fun hguarantee task htask => (h.tasks task htask).later hS.closed.trans
      (fun _ _ _ hrely => hS.stable hrely) (hS.closed.share hguarantee)
  generalize hs' : s.perform S m = s'
  have hcases := s.perform_cases S m
  rw [hs'] at hcases
  cases hcases with
  | idle i e => exact ⟨h, .inl rfl⟩
  | start t =>
      refine ⟨⟨h.world, fun task htask => ?_⟩, .inl rfl⟩
      rcases List.mem_append.mp htask with hold | hnew
      · exact h.tasks task hold
      · obtain rfl := List.mem_singleton.mp hnew
        exact hS.program t s.world h.world
  | step i e t q next hi =>
      obtain ⟨hvalid, hguarantee, hnext⟩ := safe_ask.mp (h.tasks _ (List.mem_of_getElem? hi)) e
        s.world h.world (hS.closed.refl _) (hm t q next hi)
      refine ⟨⟨hvalid, fun task htask => ?_⟩, .inr hguarantee⟩
      rcases mem_set_cases htask with rfl | hold
      · exact hnext
      · exact hlater hguarantee task hold
  | crash i =>
      exact ⟨⟨h.world, fun task htask => h.tasks task (List.mem_of_mem_eraseIdx htask)⟩, .inl rfl⟩
  | outside x =>
      obtain ⟨hvalid, hguarantee⟩ := hS.change x s.world h.world
      exact ⟨⟨hvalid, hlater hguarantee⟩, .inr hguarantee⟩

theorem Pool.Ensured.run (hS : S.Ensures D post) (h : s.Ensured S D post)
    {ms : List (Move τ E ι)} (hms : Along (Pool.perform S) (Move.Allowed D) ms s) :
    (System.run (Pool.perform S) ms s).Ensured S D post :=
  Along.invariant (fun _ _ hs hm => (hs.perform hS hm).1) hms h

theorem Pool.Ensured.relied (hS : S.Ensures D post) (h : s.Ensured S D post)
    {ms : List (Move τ E ι)} (hms : Along (Pool.perform S) (Move.Allowed D) ms s) :
    D.rely s.world (System.run (Pool.perform S) ms s).world := by
  induction ms generalizing s with
  | nil => exact hS.closed.refl _
  | cons m ms ih =>
      obtain ⟨hnext, hworld⟩ := h.perform hS hms.1
      have hrest := ih hnext hms.2
      rcases hworld with hsame | hguarantee
      · rw [hsame] at hrest
        exact hrest
      · exact hS.closed.trans (hS.closed.share hguarantee) hrest

/-- The programs keep to the discipline, whatever they end with. -/
structure Setting.Fits (S : Setting ε Q A α τ σ E ι) (D : Discipline E Q σ) : Prop where
  closed : D.Closed
  program : ∀ t w, D.valid w → Yields S.answer D (fun _ _ => True) (S.program t) w
  change : ∀ x w, D.valid w → D.valid (S.change x w) ∧ D.guarantee w (S.change x w)

structure Pool.Sound (S : Setting ε Q A α τ σ E ι) (D : Discipline E Q σ)
    (s : Pool ε Q A α τ σ) : Prop where
  world : D.valid s.world
  tasks : ∀ task ∈ s.tasks, Yields S.answer D (fun _ _ => True) task.rest s.world

theorem Setting.Fits.ensures (hS : S.Fits D) : S.Ensures D fun _ r _ => ∀ x, r = .ok x → True where
  closed := hS.closed
  stable _ h := h
  program t w hw := yields_iff.mp (hS.program t w hw)
  change := hS.change

/-- A move that is allowed leaves every program safe, and does to the world what a program may
do. -/
theorem Pool.Sound.perform (hS : S.Fits D) (h : s.Sound S D) {m : Move τ E ι}
    (hm : m.Allowed D s) :
    (s.perform S m).Sound S D ∧
      ((s.perform S m).world = s.world ∨ D.guarantee s.world (s.perform S m).world) := by
  have hensured : s.Ensured S D fun _ r _ => ∀ x, r = .ok x → True :=
    ⟨h.world, fun task htask => yields_iff.mp (h.tasks task htask)⟩
  obtain ⟨hnext, hguarantee⟩ := hensured.perform hS.ensures hm
  exact ⟨⟨hnext.world, fun task htask => yields_iff.mpr (hnext.tasks task htask)⟩, hguarantee⟩

theorem Pool.Sound.run (hS : S.Fits D) (h : s.Sound S D) {ms : List (Move τ E ι)}
    (hms : Along (Pool.perform S) (Move.Allowed D) ms s) :
    (System.run (Pool.perform S) ms s).Sound S D :=
  Along.invariant (fun _ _ hs hm => (hs.perform hS hm).1) hms h

/-! ## Credits -/

theorem sum_set_add {l : List Nat} {i x : Nat} (hi : l[i]? = some x) (y : Nat) :
    (l.set i y).sum + x = l.sum + y := by
  induction l generalizing i with
  | nil => simp at hi
  | cons z l ih =>
      cases i with
      | zero =>
          simp only [List.getElem?_cons_zero, Option.some.injEq] at hi
          subst hi
          simp only [List.set_cons_zero, List.sum_cons]
          omega
      | succ i =>
          simp only [List.getElem?_cons_succ] at hi
          have hrest := ih hi
          simp only [List.set_cons_succ, List.sum_cons]
          omega

theorem sum_eraseIdx_le (l : List Nat) (i : Nat) : (l.eraseIdx i).sum ≤ l.sum := by
  induction l generalizing i with
  | nil => simp
  | cons z l ih =>
      cases i with
      | zero => simp
      | succ i =>
          simp only [List.eraseIdx_cons_succ, List.sum_cons]
          exact Nat.add_le_add_left (ih i) z

/-- How much the world says was used and granted. -/
structure Account (Q : Type) (A : Q → Type) (σ : Type) where
  uses : Q → Nat
  grants : (q : Q) → A q → Nat
  used : σ → Nat
  granted : σ → Nat

variable {K : Account Q A σ}

/-- The world keeps the account: a request uses no more than it says, and what an answer grants
was granted. -/
structure Setting.Keeps (S : Setting ε Q A α τ σ E ι) (K : Account Q A σ) : Prop where
  program : ∀ t, (S.program t).Spends K.uses K.grants 0
  used : ∀ e q w, K.used (S.answer e q w).2 ≤ K.used w + K.uses q
  granted : ∀ e q w, K.granted w ≤ K.granted (S.answer e q w).2
  grants : ∀ e q w x, (S.answer e q w).1 = .ok x →
    K.granted w + K.grants q x ≤ K.granted (S.answer e q w).2
  change : ∀ x w, K.used (S.change x w) ≤ K.used w ∧ K.granted w ≤ K.granted (S.change x w)

/-- Every program has a credit, and what was used and may still be was granted. -/
def Pool.Covered (K : Account Q A σ) (s : Pool ε Q A α τ σ) : Prop :=
  ∃ l : List (Task ε Q A α τ × Nat), l.map Prod.fst = s.tasks ∧
    (∀ x ∈ l, x.1.rest.Spends K.uses K.grants x.2) ∧
    K.used s.world + (l.map Prod.snd).sum ≤ K.granted s.world

theorem Pool.Covered.used_le (h : s.Covered K) : K.used s.world ≤ K.granted s.world := by
  obtain ⟨l, -, -, hle⟩ := h
  exact Nat.le_trans (Nat.le_add_right ..) hle

theorem Pool.Covered.perform (hS : S.Keeps K) (h : s.Covered K) (m : Move τ E ι) :
    (s.perform S m).Covered K := by
  obtain ⟨l, htasks, hspends, hle⟩ := h
  generalize hs' : s.perform S m = s'
  have hcases := s.perform_cases S m
  rw [hs'] at hcases
  cases hcases with
  | idle i e => exact ⟨l, htasks, hspends, hle⟩
  | start t =>
      refine ⟨l ++ [(⟨t, S.program t⟩, 0)], ?_, fun x hx => ?_, ?_⟩
      · rw [List.map_append, htasks]
        rfl
      · rcases List.mem_append.mp hx with hold | hnew
        · exact hspends x hold
        · obtain rfl := List.mem_singleton.mp hnew
          exact hS.program t
      · rw [List.map_append, List.sum_append]
        exact hle
  | step i e t q next hi =>
      rw [← htasks, List.getElem?_map, Option.map_eq_some_iff] at hi
      obtain ⟨⟨task, n⟩, hn, rfl⟩ := hi
      obtain ⟨huses, hok, herror⟩ := hspends _ (List.mem_of_getElem? hn)
      have hn' : (l.map Prod.snd)[i]? = some n := by rw [List.getElem?_map, hn]; rfl
      -- the credit after the answer
      have hcredit : ∃ n', (next (S.answer e q s.world).1).Spends K.uses K.grants n' ∧
          n' + K.used (S.answer e q s.world).2 + K.granted s.world ≤
            n + K.used s.world + K.granted (S.answer e q s.world).2 := by
        have hused := hS.used e q s.world
        cases hanswer : (S.answer e q s.world).1 with
        | ok x =>
            have hgrants := hS.grants e q s.world x hanswer
            exact ⟨_, hok x, by omega⟩
        | error x =>
            have hgranted := hS.granted e q s.world
            exact ⟨_, herror x, by omega⟩
      obtain ⟨n', hnext, hcredit⟩ := hcredit
      refine ⟨l.set i (⟨t, next (S.answer e q s.world).1⟩, n'), ?_, fun x hx => ?_, ?_⟩
      · rw [List.map_set, htasks]
      · rcases mem_set_cases hx with rfl | hold
        · exact hnext
        · exact hspends x hold
      · have hsum := sum_set_add hn' n'
        rw [List.map_set]
        dsimp only
        omega
  | crash i =>
      refine ⟨l.eraseIdx i, ?_, fun x hx => hspends x (List.mem_of_mem_eraseIdx hx), ?_⟩
      · rw [← htasks, List.eraseIdx_map]
      · have hsum := sum_eraseIdx_le (l.map Prod.snd) i
        rw [List.eraseIdx_map] at hsum
        dsimp only
        omega
  | outside x =>
      obtain ⟨hused, hgranted⟩ := hS.change x s.world
      exact ⟨l, htasks, hspends, by dsimp only; omega⟩

theorem Pool.Covered.run (hS : S.Keeps K) (h : s.Covered K) (ms : List (Move τ E ι)) :
    (System.run (Pool.perform S) ms s).Covered K :=
  run_invariant (fun m _ hs => hs.perform hS m) h ms

end System
