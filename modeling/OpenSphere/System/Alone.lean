import OpenSphere.System.Program

/-!
# Programs that are alone

What a program does when nobody else does anything: `exec_bind_cases` follows a sequence from its first
part to the rest, and `exec_relation` says what every request of a program keeps.
-/

namespace System

variable {ε Q E σ α β : Type} {A : Q → Type} {answer : E → (q : Q) → σ → Except ε (A q) × σ}
  {p : Program ε Q A α} {es : Nat → E} {s : σ}

theorem bind_assoc {γ : Type} (p : Program ε Q A α) (f : α → Program ε Q A β)
    (g : β → Program ε Q A γ) : (p >>= f) >>= g = p >>= fun x => f x >>= g := by
  induction p with
  | pure x => rfl
  | throw e => rfl
  | ask q next ih => exact congrArg (Program.ask q) (funext ih)

/-- A sequence fails with its first part, or goes on with what that returns. -/
theorem exec_bind_cases (p : Program ε Q A α) (f : α → Program ε Q A β) (es : Nat → E) (s : σ) :
    (∃ e s', p.exec answer es s = (.error e, s') ∧ (p >>= f).exec answer es s = (.error e, s')) ∨
      ∃ x k s', p.exec answer es s = (.ok x, s') ∧
        (p >>= f).exec answer es s = (f x).exec answer (fun n => es (n + k)) s' := by
  induction p generalizing es s with
  | pure x => exact .inr ⟨x, 0, s, rfl, rfl⟩
  | throw e => exact .inl ⟨e, s, rfl, rfl⟩
  | ask q next ih =>
      rcases ih (answer (es 0) q s).1 (fun n => es (n + 1)) (answer (es 0) q s).2 with
        ⟨e, s', hp, hbind⟩ | ⟨x, k, s', hp, hbind⟩
      · exact .inl ⟨e, s', hp, hbind⟩
      · refine .inr ⟨x, k + 1, s', hp, hbind.trans ?_⟩
        simp only [Nat.add_assoc]

/-- A sequence that succeeds succeeds with both of its parts. -/
theorem exec_bind_ok {f : α → Program ε Q A β} {t : σ} {y : β}
    (h : (p >>= f).exec answer es s = (.ok y, t)) :
    ∃ x k s', p.exec answer es s = (.ok x, s') ∧
      (f x).exec answer (fun n => es (n + k)) s' = (.ok y, t) := by
  rcases exec_bind_cases p f es s with ⟨e, s', -, hbind⟩ | ⟨x, k, s', hp, hbind⟩
  · rw [hbind] at h
    cases h
  · exact ⟨x, k, s', hp, hbind ▸ h⟩

theorem exec_bind_error {s' : σ} {e : ε}
    (h : p.exec answer es s = (.error e, s')) (f : α → Program ε Q A β) :
    (p >>= f).exec answer es s = (.error e, s') := by
  rcases exec_bind_cases p f es s with ⟨e', s'', hp, hbind⟩ | ⟨x, k, s'', hp, -⟩
  · rw [h] at hp
    cases hp
    exact hbind
  · rw [h] at hp
    cases hp

/-- A sequence whose first part returns goes on with that. -/
theorem exec_bind_next {s' : σ} {x : α}
    (h : p.exec answer es s = (.ok x, s')) (f : α → Program ε Q A β) :
    ∃ k, (p >>= f).exec answer es s = (f x).exec answer (fun n => es (n + k)) s' := by
  rcases exec_bind_cases p f es s with ⟨e, s'', hp, -⟩ | ⟨y, k, s'', hp, hbind⟩
  · rw [h] at hp
    cases hp
  · rw [h] at hp
    cases hp
    exact ⟨k, hbind⟩

theorem exec_ask {q : Q} {next : Except ε (A q) → Program ε Q A α} {s' : σ}
    {x : Except ε (A q)} (h : answer (es 0) q s = (x, s')) :
    (Program.ask q next).exec answer es s = (next x).exec answer (fun n => es (n + 1)) s' := by
  rw [Program.exec, h]

theorem exec_await_bind {q : Q} {f : A q → Program ε Q A β} {s' : σ} {x : A q}
    (h : answer (es 0) q s = (.ok x, s')) :
    (Program.await q >>= f).exec answer es s = (f x).exec answer (fun n => es (n + 1)) s' := by
  show ((Program.bind _ f)).exec answer _ (answer (es 0) q s).2 = _
  rw [h]
  rfl

theorem exec_await_fails {q : Q} {s' : σ} {e : ε} (h : answer (es 0) q s = (.error e, s'))
    (f : A q → Program ε Q A β) : (Program.await q >>= f).exec answer es s = (.error e, s') :=
  exec_ask h

theorem exec_await_ok {q : Q} {t : σ} {x : A q}
    (h : (Program.await q).exec answer es s = (.ok x, t)) : answer (es 0) q s = (.ok x, t) := by
  cases hanswer : answer (es 0) q s with
  | mk r s' =>
      rw [Program.await, Program.exec, hanswer] at h
      cases r <;> exact h

theorem exec_lift_bind {y : Except ε α} {x : α} {f : α → Program ε Q A β}
    (h : y = .ok x) : (Program.lift y >>= f).exec answer es s = (f x).exec answer es s := by
  rw [h]
  rfl

theorem exec_lift_ok {x : Except ε α} {t : σ} {y : α}
    (h : (Program.lift x : Program ε Q A α).exec answer es s = (.ok y, t)) : x = .ok y ∧ t = s := by
  cases x with
  | error e => cases h
  | ok z =>
      cases h
      exact ⟨rfl, rfl⟩

theorem exec_relation {kind : Q → Prop} {post : α → Prop} {R : σ → σ → Prop} (hrefl : ∀ s, R s s)
    (htrans : ∀ {s t u}, R s t → R t u → R s u)
    (hkind : ∀ e q s, kind q → R s (answer e q s).2) (h : p.Keeps kind post)
    (es : Nat → E) (s : σ) : R s (p.exec answer es s).2 := by
  induction p generalizing es s with
  | pure x => exact hrefl s
  | throw e => exact hrefl s
  | ask q next ih => exact htrans (hkind _ _ _ h.1) (ih _ (h.2 _) _ _)

/-! ## Safety of a program that is alone -/

/-- Nobody else does anything, and every request meets a condition where it is made. -/
def alone (C : E → Q → σ → Prop) : Discipline E Q σ where
  valid _ := True
  rely := Eq
  guarantee _ _ := True
  allowed := C

section

variable {C : E → Q → σ → Prop} {post : Except ε α → σ → Prop}

theorem safe_alone {q : Q} {post : Except ε (A q) → σ → Prop}
    (h : ∀ e, C e q s → post (answer e q s).1 (answer e q s).2) :
    Safe answer (alone C) post (Program.await q) s := by
  rw [safe_await]
  rintro e _ - rfl hallowed
  exact ⟨trivial, trivial, h e hallowed⟩

/-- A program that is safe ends as promised if its requests meet the condition. -/
theorem Safe.alone_exec (h : Safe answer (alone C) post p s)
    (hmeets : p.Meets answer C es s) : post (p.exec answer es s).1 (p.exec answer es s).2 :=
  h.exec_of_meets (fun _ => rfl) hmeets trivial

end

end System
