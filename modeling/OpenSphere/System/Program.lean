import Mathlib.Logic.Function.Basic

/-!
# Programs that await answers

A program computes, awaits the answer of another system to a request, and goes on
with the answer.  An answer may be an error, which the program throws further or
catches.  Between the answer and the next request the world may change.

`exec` runs a program by itself.  `Safe` is for a program that is not alone: it
says what the program may do to the world at each request and what holds when it
ends, whatever the others do in between within the bounds of a `Discipline`.  A
program knows about the world what was so when it was last answered, and what
the discipline keeps of that since.
-/

namespace System

variable {ε Q E σ α β : Type} {A : Q → Type}

/-- A program with requests `q : Q` and answers `A q`. -/
inductive Program (ε Q : Type) (A : Q → Type) (α : Type) where
  | pure (x : α)
  | throw (e : ε)
  | ask (q : Q) (next : Except ε (A q) → Program ε Q A α)

variable {p : Program ε Q A α} {f : α → Program ε Q A β}

namespace Program

def bind : Program ε Q A α → (α → Program ε Q A β) → Program ε Q A β
  | .pure x, f => f x
  | .throw e, _ => .throw e
  | .ask q next, f => .ask q fun a => (next a).bind f

/-- `try { p } catch (e) { h(e) }`. -/
def tryCatch : Program ε Q A α → (ε → Program ε Q A α) → Program ε Q A α
  | .pure x, _ => .pure x
  | .throw e, h => h e
  | .ask q next, h => .ask q fun a => (next a).tryCatch h

instance : Monad (Program ε Q A) where
  pure := .pure
  bind := .bind

/-- `await q`. -/
def await (q : Q) : Program ε Q A (A q) :=
  .ask q fun
    | .ok a => .pure a
    | .error e => .throw e

def lift : Except ε α → Program ε Q A α
  | .ok x => .pure x
  | .error e => .throw e

/-- The end of a program that is alone, with one element of `E` for each answer. -/
def exec (answer : E → (q : Q) → σ → Except ε (A q) × σ) :
    Program ε Q A α → (Nat → E) → σ → Except ε α × σ
  | .pure x, _, s => (.ok x, s)
  | .throw e, _, s => (.error e, s)
  | .ask q next, es, s =>
      exec answer (next (answer (es 0) q s).1) (fun n => es (n + 1)) (answer (es 0) q s).2

end Program

/-- Every request of a program is of a kind, and what it returns satisfies `post`, whatever the
answers are. -/
def Program.Keeps (kind : Q → Prop) (post : α → Prop) : Program ε Q A α → Prop
  | .pure x => post x
  | .throw _ => True
  | .ask q next => kind q ∧ ∀ a, (next a).Keeps kind post

section

variable {kind : Q → Prop}

theorem Program.Keeps.bind {mid : α → Prop} {post : β → Prop}
    (h : p.Keeps kind mid) (hf : ∀ x, mid x → (f x).Keeps kind post) :
    (p >>= f).Keeps kind post := by
  induction p with
  | pure x => exact hf x h
  | throw e => trivial
  | ask q next ih => exact ⟨h.1, fun a => ih a (h.2 a)⟩

/-- A sequence whose second program does not depend on what the first one returns. -/
theorem Program.Keeps.seq {post : β → Prop}
    (h : p.Keeps kind fun _ => True) (hf : ∀ x, (f x).Keeps kind post) :
    (p >>= f).Keeps kind post :=
  h.bind fun x _ => hf x

theorem Program.Keeps.tryCatch {post : α → Prop} {f : ε → Program ε Q A α}
    (h : p.Keeps kind post) (hf : ∀ e, (f e).Keeps kind post) :
    (p.tryCatch f).Keeps kind post := by
  induction p with
  | pure x => exact h
  | throw e => exact hf e
  | ask q next ih => exact ⟨h.1, fun a => ih a (h.2 a)⟩

theorem Program.keeps_lift {post : α → Prop} {x : Except ε α} (h : ∀ y, x = .ok y → post y) :
    (Program.lift x : Program ε Q A α).Keeps kind post := by
  cases x with
  | error e => trivial
  | ok y => exact h y rfl

theorem Program.keeps_await {q : Q} (hq : kind q) :
    (Program.await q : Program ε Q A (A q)).Keeps kind fun _ => True := by
  refine ⟨hq, fun a => ?_⟩
  cases a with
  | error e => trivial
  | ok x => trivial

theorem Program.Keeps.imp {kind' : Q → Prop} {post post' : α → Prop}
    (h : p.Keeps kind post) (hkind : ∀ q, kind q → kind' q) (hpost : ∀ x, post x → post' x) :
    p.Keeps kind' post' := by
  induction p with
  | pure x => exact hpost x h
  | throw e => trivial
  | ask q next ih => exact ⟨hkind q h.1, fun a => ih a (h.2 a)⟩

end

theorem Program.keeps_any (p : Program ε Q A α) : p.Keeps (fun _ => True) fun _ => True := by
  induction p with
  | pure x => trivial
  | throw e => trivial
  | ask q next ih => exact ⟨trivial, ih⟩

/-- Before a request that opens the gate a program makes no request of a kind, and it returns only
what satisfies `post`. -/
def Program.Gated (gate kind : Q → Prop) (post : α → Prop) : Program ε Q A α → Prop
  | .pure x => post x
  | .throw _ => True
  | .ask q next => gate q ∨ ¬ kind q ∧ ∀ a, (next a).Gated gate kind post

theorem Program.Keeps.gated {gate kind : Q → Prop} {mid : α → Prop} {post : β → Prop}
    (h : p.Keeps (fun q => ¬ kind q) mid)
    (hf : ∀ x, mid x → (f x).Gated gate kind post) : (p >>= f).Gated gate kind post := by
  induction p with
  | pure x => exact hf x h
  | throw e => trivial
  | ask q next ih => exact .inr ⟨h.1, fun a => ih a (h.2 a)⟩

theorem Program.Keeps.gated_self {gate kind : Q → Prop} {post : α → Prop}
    (h : p.Keeps (fun q => ¬ kind q) post) : p.Gated gate kind post := by
  induction p with
  | pure x => exact h
  | throw e => trivial
  | ask q next ih => exact .inr ⟨h.1, fun a => ih a (h.2 a)⟩

theorem Program.gated_await {gate kind : Q → Prop} {post : β → Prop} {q : Q}
    {f : A q → Program ε Q A β} (hq : gate q) :
    (Program.await q >>= f).Gated gate kind post := .inl hq

/-! ## Credits -/

/-- A program with a credit makes no request that needs more than it has.  An answer may grant it
more. -/
def Program.Spends (uses : Q → Nat) (grants : (q : Q) → A q → Nat) :
    Nat → Program ε Q A α → Prop
  | _, .pure _ => True
  | _, .throw _ => True
  | n, .ask q next => uses q ≤ n ∧ (∀ x, (next (.ok x)).Spends uses grants (n - uses q + grants q x)) ∧
      ∀ e, (next (.error e)).Spends uses grants (n - uses q)

section

variable {uses : Q → Nat} {grants : (q : Q) → A q → Nat}

theorem Program.Spends.mono {n m : Nat} (h : p.Spends uses grants n)
    (hle : n ≤ m) : p.Spends uses grants m := by
  induction p generalizing n m with
  | pure x => trivial
  | throw e => trivial
  | ask q next ih =>
      refine ⟨Nat.le_trans h.1 hle, fun x => ih _ (h.2.1 x) ?_, fun e => ih _ (h.2.2 e) ?_⟩
      · exact Nat.add_le_add_right (Nat.sub_le_sub_right hle _) _
      · exact Nat.sub_le_sub_right hle _

/-- A program that needs nothing leaves its credit to the next one. -/
theorem Program.Keeps.spends {post : α → Prop} {n : Nat} (h : p.Keeps (fun q => uses q = 0) post)
    (hf : ∀ x, post x → (f x).Spends uses grants n) : (p >>= f).Spends uses grants n := by
  induction p with
  | pure x => exact hf x h
  | throw e => trivial
  | ask q next ih =>
      refine ⟨h.1 ▸ Nat.zero_le n, fun x => (ih _ (h.2 _)).mono ?_, fun e => (ih _ (h.2 _)).mono ?_⟩
      · rw [h.1]
        exact Nat.le_add_right ..
      · rw [h.1]
        exact Nat.le_refl n

theorem Program.Keeps.spends_self {post : α → Prop} {n : Nat}
    (h : p.Keeps (fun q => uses q = 0) post) : p.Spends uses grants n := by
  induction p generalizing n with
  | pure x => trivial
  | throw e => trivial
  | ask q next ih => exact ⟨h.1 ▸ Nat.zero_le n, fun x => ih _ (h.2 _), fun e => ih _ (h.2 _)⟩

theorem Program.Spends.bind {n m : Nat}
    (h : p.Spends uses grants n) (hf : ∀ x, (f x).Spends uses grants m) :
    (p >>= f).Spends uses grants (n + m) := by
  induction p generalizing n with
  | pure x => exact (hf x).mono (Nat.le_add_left m n)
  | throw e => trivial
  | ask q next ih =>
      obtain ⟨huses, hok, herror⟩ := h
      refine ⟨Nat.le_trans huses (Nat.le_add_right n m), fun x => (ih _ (hok x)).mono ?_,
        fun e => (ih _ (herror e)).mono ?_⟩
      · omega
      · omega

theorem Program.Spends.tryCatch {f : ε → Program ε Q A α} {n : Nat}
    (h : p.Spends uses grants n) (hf : ∀ e, (f e).Spends uses grants 0) :
    (p.tryCatch f).Spends uses grants n := by
  induction p generalizing n with
  | pure x => trivial
  | throw e => exact (hf e).mono (Nat.zero_le n)
  | ask q next ih => exact ⟨h.1, fun x => ih _ (h.2.1 x), fun e => ih _ (h.2.2 e)⟩

end

structure Discipline (E Q σ : Type) where
  /-- What holds of the world between any two answers. -/
  valid : σ → Prop
  /-- What the others may do between two answers. -/
  rely : σ → σ → Prop
  /-- What the program may do with one request. -/
  guarantee : σ → σ → Prop
  /-- How a request may be answered, and where it may be made. -/
  allowed : E → Q → σ → Prop

/-- A program keeps to a discipline, and what it ends with satisfies `post`. -/
def Safe (answer : E → (q : Q) → σ → Except ε (A q) × σ) (D : Discipline E Q σ)
    (post : Except ε α → σ → Prop) : Program ε Q A α → σ → Prop
  | .pure x, s => post (.ok x) s
  | .throw e, s => post (.error e) s
  | .ask q next, s => ∀ e s', D.valid s' → D.rely s s' → D.allowed e q s' →
      D.valid (answer e q s').2 ∧ D.guarantee s' (answer e q s').2 ∧
        Safe answer D post (next (answer e q s').1) (answer e q s').2

section

variable {answer : E → (q : Q) → σ → Except ε (A q) × σ} {D : Discipline E Q σ}
  {post : Except ε α → σ → Prop} {s : σ}

theorem safe_pure {x : α} :
    Safe answer D post (pure x) s ↔ post (.ok x) s := Iff.rfl

theorem safe_throw {e : ε} :
    Safe answer D post (.throw e) s ↔ post (.error e) s := Iff.rfl

theorem safe_ask {q : Q} {next : Except ε (A q) → Program ε Q A α} :
    Safe answer D post (.ask q next) s ↔
      ∀ e s', D.valid s' → D.rely s s' → D.allowed e q s' →
        D.valid (answer e q s').2 ∧ D.guarantee s' (answer e q s').2 ∧
          Safe answer D post (next (answer e q s').1) (answer e q s').2 := Iff.rfl

/-- A sequence is safe if its first program ends in the middle and the others go on from
there. -/
theorem Safe.bind {m : Except ε α → σ → Prop} {post : Except ε β → σ → Prop}
    (h : Safe answer D m p s)
    (hok : ∀ x s, m (.ok x) s → Safe answer D post (f x) s)
    (herror : ∀ e s, m (.error e) s → post (.error e) s) : Safe answer D post (p >>= f) s := by
  induction p generalizing s with
  | pure x => exact hok x s h
  | throw e => exact herror e s h
  | ask q next ih =>
      intro e s' hvalid hrely hallowed
      obtain ⟨hvalid', hguarantee, hnext⟩ := h e s' hvalid hrely hallowed
      exact ⟨hvalid', hguarantee, ih _ hnext⟩

theorem Safe.tryCatch {m : Except ε α → σ → Prop}
    {f : ε → Program ε Q A α} (h : Safe answer D m p s)
    (hok : ∀ x s, m (.ok x) s → post (.ok x) s)
    (herror : ∀ e s, m (.error e) s → Safe answer D post (f e) s) :
    Safe answer D post (p.tryCatch f) s := by
  induction p generalizing s with
  | pure x => exact hok x s h
  | throw e => exact herror e s h
  | ask q next ih =>
      intro e s' hvalid hrely hallowed
      obtain ⟨hvalid', hguarantee, hnext⟩ := h e s' hvalid hrely hallowed
      exact ⟨hvalid', hguarantee, ih _ hnext⟩

@[simp] theorem lift_ok_bind (x : α) (f : α → Program ε Q A β) :
    (Program.lift (.ok x) : Program ε Q A α) >>= f = f x := rfl

@[simp] theorem pure_bind (x : α) (f : α → Program ε Q A β) :
    (pure x : Program ε Q A α) >>= f = f x := rfl

theorem safe_lift {x : Except ε α} :
    Safe answer D post (Program.lift x) s ↔ post x s := by
  cases x <;> exact Iff.rfl

theorem safe_lift_bind {post : Except ε β → σ → Prop} {x : Except ε α}
    (hok : ∀ y, x = .ok y → Safe answer D post (f y) s)
    (herror : ∀ e, x = .error e → post (.error e) s) :
    Safe answer D post (Program.lift x >>= f) s := by
  cases x with
  | ok y => exact hok y rfl
  | error e => exact herror e rfl

theorem safe_await {q : Q} {post : Except ε (A q) → σ → Prop} :
    Safe answer D post (Program.await q) s ↔
      ∀ e s', D.valid s' → D.rely s s' → D.allowed e q s' →
        D.valid (answer e q s').2 ∧ D.guarantee s' (answer e q s').2 ∧
          post (answer e q s').1 (answer e q s').2 := by
  refine forall₅_congr fun e s' _ _ _ => and_congr Iff.rfl (and_congr Iff.rfl ?_)
  cases (answer e q s').1 <;> exact Iff.rfl

/-- What holds at the end may be weakened. -/
theorem Safe.imp {post' : Except ε α → σ → Prop}
    (h : Safe answer D post p s) (himp : ∀ r s, post r s → post' r s) :
    Safe answer D post' p s := by
  induction p generalizing s with
  | pure x => exact himp _ _ h
  | throw e => exact himp _ _ h
  | ask q next ih =>
      intro e s' hvalid hrely hallowed
      obtain ⟨hvalid', hguarantee, hnext⟩ := h e s' hvalid hrely hallowed
      exact ⟨hvalid', hguarantee, ih _ hnext⟩

theorem Safe.later {s' : σ} (htrans : ∀ {s t u}, D.rely s t → D.rely t u → D.rely s u)
    (hpost : ∀ r s s', D.rely s s' → post r s → post r s') (h : Safe answer D post p s)
    (hrely : D.rely s s') : Safe answer D post p s' := by
  cases p with
  | pure x => exact hpost _ _ _ hrely h
  | throw e => exact hpost _ _ _ hrely h
  | ask q next =>
      intro e t hvalid hlater hallowed
      exact h e t hvalid (htrans hrely hlater) hallowed

/-- Every request of a program that is alone meets a condition where it is made. -/
def Program.Meets (answer : E → (q : Q) → σ → Except ε (A q) × σ) (C : E → Q → σ → Prop) :
    Program ε Q A α → (Nat → E) → σ → Prop
  | .pure _, _, _ => True
  | .throw _, _, _ => True
  | .ask q next, es, s => C (es 0) q s ∧
      Meets answer C (next (answer (es 0) q s).1) (fun n => es (n + 1)) (answer (es 0) q s).2

instance Program.Meets.decidable {C : E → Q → σ → Prop} [∀ e q s, Decidable (C e q s)] :
    ∀ (p : Program ε Q A α) (es : Nat → E) (s : σ), Decidable (p.Meets answer C es s)
  | .pure _, _, _ => .isTrue True.intro
  | .throw _, _, _ => .isTrue True.intro
  | .ask _ next, _, _ => @instDecidableAnd _ _ _ (Program.Meets.decidable (next _) _ _)

theorem Program.Meets.trivial {C : E → Q → σ → Prop} {es : Nat → E}
    (h : ∀ n q s, C (es n) q s) : p.Meets answer C es s := by
  induction p generalizing s es with
  | pure x => exact True.intro
  | throw e => exact True.intro
  | ask q next ih => exact ⟨h 0 q s, ih _ fun n => h (n + 1)⟩

/-- A program that is safe while nobody else does anything ends as promised when it is
alone and its requests are allowed. -/
theorem Safe.exec_of_meets
    {es : Nat → E} (hrefl : ∀ s, D.rely s s) (hmeets : p.Meets answer D.allowed es s)
    (hs : D.valid s) (h : Safe answer D post p s) :
    post (p.exec answer es s).1 (p.exec answer es s).2 := by
  induction p generalizing s es with
  | pure x => exact h
  | throw e => exact h
  | ask q next ih =>
      obtain ⟨hvalid, -, hnext⟩ := h (es 0) s hs (hrefl s) hmeets.1
      exact ih _ hmeets.2 hvalid hnext

/-- A program that is safe while nobody else does anything ends as promised when it is
alone. -/
theorem Safe.exec {es : Nat → E}
    (hrefl : ∀ s, D.rely s s) (hallowed : ∀ n q s, D.allowed (es n) q s) (hs : D.valid s)
    (h : Safe answer D post p s) :
    post (p.exec answer es s).1 (p.exec answer es s).2 :=
  h.exec_of_meets hrefl (.trivial hallowed) hs

/-! ## What a program returns -/

structure Discipline.Closed (D : Discipline E Q σ) : Prop where
  refl : ∀ s, D.rely s s
  trans : ∀ {s t u}, D.rely s t → D.rely t u → D.rely s u
  share : ∀ {s t}, D.guarantee s t → D.rely s t

/-- A program keeps to a discipline, and what it returns satisfies `post`. -/
def Yields (answer : E → (q : Q) → σ → Except ε (A q) × σ) (D : Discipline E Q σ)
    (post : α → σ → Prop) (p : Program ε Q A α) (s : σ) : Prop :=
  Safe answer D (fun r t => ∀ x, r = .ok x → post x t) p s

theorem yields_iff {post : α → σ → Prop} :
    Yields answer D post p s ↔ Safe answer D (fun r t => ∀ x, r = .ok x → post x t) p s := Iff.rfl

theorem Safe.frame (hD : D.Closed)
    (h : Safe answer D post p s) : Safe answer D (fun r t => D.rely s t ∧ post r t) p s := by
  induction p generalizing s with
  | pure x => exact ⟨hD.refl s, h⟩
  | throw e => exact ⟨hD.refl s, h⟩
  | ask q next ih =>
      intro e s' hvalid hrely hallowed
      obtain ⟨hvalid', hguarantee, hnext⟩ := h e s' hvalid hrely hallowed
      refine ⟨hvalid', hguarantee, (ih _ hnext).imp fun r t ht => ⟨?_, ht.2⟩⟩
      exact hD.trans (hD.trans hrely (hD.share hguarantee)) ht.1

theorem yields_pure {post : α → σ → Prop} {x : α} (h : post x s) :
    Yields answer D post (pure x) s := by
  rintro _ ⟨⟩
  exact h

theorem yields_throw {post : α → σ → Prop} {e : ε} :
    Yields answer D post (.throw e) s := fun _ h => (nomatch h)

theorem yields_lift {post : α → σ → Prop} {x : Except ε α} (h : ∀ y, x = .ok y → post y s) :
    Yields answer D post (.lift x) s := by
  cases x with
  | error e => exact yields_throw
  | ok y => exact yields_pure (h y rfl)

theorem yields_await {q : Q} {post : A q → σ → Prop}
    (h : ∀ e s', D.valid s' → D.rely s s' → D.allowed e q s' →
      D.valid (answer e q s').2 ∧ D.guarantee s' (answer e q s').2 ∧
        ∀ x, (answer e q s').1 = .ok x → post x (answer e q s').2) :
    Yields answer D post (Program.await q) s := safe_await.mpr h

theorem Program.Keeps.yields {kind : Q → Prop} {post : α → Prop}
    (h : p.Keeps kind post)
    (hkind : ∀ e q w, kind q → D.valid w → D.valid (answer e q w).2 ∧ D.guarantee w (answer e q w).2) :
    Yields answer D (fun x _ => post x) p s := by
  induction p generalizing s with
  | pure x => exact yields_pure h
  | throw e => exact yields_throw
  | ask q next ih =>
      intro e s' hvalid _ _
      obtain ⟨hvalid', hguarantee⟩ := hkind e q s' h.1 hvalid
      exact ⟨hvalid', hguarantee, ih _ (h.2 _)⟩

theorem Yields.frame {post : α → σ → Prop} (hD : D.Closed)
    (h : Yields answer D post p s) : Yields answer D (fun x t => D.rely s t ∧ post x t) p s :=
  (Safe.frame hD h).imp fun _ _ ht x hx => ⟨ht.1, ht.2 x hx⟩

theorem Yields.bind {mid : α → σ → Prop} {post : β → σ → Prop}
    (hD : D.Closed) (h : Yields answer D mid p s)
    (hf : ∀ x t, D.rely s t → mid x t → Yields answer D post (f x) t) :
    Yields answer D post (p >>= f) s := by
  refine Safe.bind (Safe.frame hD h) (fun x t ht => ?_) fun e t _ x hx => (nomatch hx)
  exact hf x t ht.1 (ht.2 x rfl)

theorem Yields.tryCatch {post : α → σ → Prop} {f : ε → Program ε Q A α}
    (hD : D.Closed) (h : Yields answer D post p s)
    (hf : ∀ e t, D.rely s t → Yields answer D post (f e) t) :
    Yields answer D post (p.tryCatch f) s :=
  Safe.tryCatch (Safe.frame hD h) (fun _ _ ht => ht.2) fun e t ht => hf e t ht.1

theorem Yields.imp {post post' : α → σ → Prop}
    (h : Yields answer D post p s) (himp : ∀ x t, post x t → post' x t) :
    Yields answer D post' p s :=
  Safe.imp h fun _ t ht x hx => himp x t (ht x hx)

end

-- a program is followed request by request, not by computing it
attribute [irreducible] Safe Yields

end System
