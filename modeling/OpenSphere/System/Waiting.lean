import OpenSphere.System.Pool

/-!
# Programs that wait

Between a request and its answer a program waits, and what it counts on meanwhile depends on what it
waits for.  A `Contract` says, request by request, what holds while one waits and what the others may
do to the world until it is answered; `later` is what nobody ever undoes.

`Watched` is for one program, and `Pool.Watchful.perform` for a pool of them: as long as every move
leaves alone what the waiting requests rely on, each request finds what it needs.
-/

namespace System

variable {ε Q E σ α β τ ι : Type} {A : Q → Type}

structure Contract (τ E Q σ : Type) where
  /-- What holds of the world between any two answers. -/
  valid : σ → Prop
  /-- What is never undone. -/
  later : σ → σ → Prop
  /-- What the others may do while a request waits. -/
  rely : Q → σ → σ → Prop
  /-- What holds while a request of a program waits. -/
  needs : τ → Q → σ → Prop
  /-- How a request of a program may be answered. -/
  allowed : τ → E → Q → σ → Prop

structure Contract.Kept (C : Contract τ E Q σ) (answer : E → (q : Q) → σ → Except ε (A q) × σ) :
    Prop where
  refl : ∀ s, C.later s s
  trans : ∀ {s t u}, C.later s t → C.later t u → C.later s u
  rely_refl : ∀ q s, C.rely q s s
  rely_trans : ∀ {q s t u}, C.rely q s t → C.rely q t u → C.rely q s u
  rely_later : ∀ {q s t}, C.rely q s t → C.later s t
  answer : ∀ {t e q s}, C.valid s → C.needs t q s → C.allowed t e q s →
    C.valid (answer e q s).2 ∧ C.later s (answer e q s).2

/-- Every request of a program finds what it needs, and what the program returns satisfies `post`. -/
def Watched (answer : E → (q : Q) → σ → Except ε (A q) × σ) (C : Contract τ E Q σ) (t : τ)
    (post : α → σ → Prop) : Program ε Q A α → σ → Prop
  | .pure x, s => post x s
  | .throw _, _ => True
  | .ask q next, s => ∀ s', C.valid s' → C.rely q s s' → C.needs t q s' ∧
      ∀ e, C.allowed t e q s' → Watched answer C t post (next (answer e q s').1) (answer e q s').2

section

variable {answer : E → (q : Q) → σ → Except ε (A q) × σ} {C : Contract τ E Q σ} {t : τ}
  {p : Program ε Q A α} {post : α → σ → Prop} {s : σ}

theorem watched_pure {x : α} (h : post x s) :
    Watched answer C t post (pure x) s := h

theorem watched_throw {e : ε} :
    Watched answer C t post (.throw e) s := True.intro

theorem watched_lift {x : Except ε α}
    (h : ∀ y, x = .ok y → post y s) : Watched answer C t post (.lift x) s := by
  cases x with
  | error e => exact watched_throw
  | ok y => exact h y rfl

theorem watched_await {q : Q} {post : A q → σ → Prop}
    (h : ∀ s', C.valid s' → C.rely q s s' → C.needs t q s' ∧
      ∀ e, C.allowed t e q s' → ∀ x, (answer e q s').1 = .ok x → post x (answer e q s').2) :
    Watched answer C t post (Program.await q) s := by
  intro s' hvalid hrely
  obtain ⟨hneeds, hanswer⟩ := h s' hvalid hrely
  refine ⟨hneeds, fun e hallowed => ?_⟩
  have hpost := hanswer e hallowed
  cases hx : (answer e q s').1 with
  | error f => exact watched_throw
  | ok x => exact hpost x hx

/-- What is known before a program is known after it, up to what is never undone. -/
theorem Watched.bind {m : α → σ → Prop} {post : β → σ → Prop}
    {f : α → Program ε Q A β} (hC : C.Kept answer) (h : Watched answer C t m p s)
    (hf : ∀ x u, C.later s u → m x u → Watched answer C t post (f x) u) :
    Watched answer C t post (p >>= f) s := by
  induction p generalizing s with
  | pure x => exact hf x s (hC.refl s) h
  | throw e => exact watched_throw
  | ask q next ih =>
      intro s' hvalid hrely
      obtain ⟨hneeds, hnext⟩ := h s' hvalid hrely
      refine ⟨hneeds, fun e hallowed => ih _ (hnext e hallowed) fun x u hlater hmid => ?_⟩
      have hanswer := (hC.answer hvalid hneeds hallowed).2
      exact hf x u (hC.trans (hC.trans (hC.rely_later hrely) hanswer) hlater) hmid

/-- A sequence whose first program says nothing of what it returns. -/
theorem Watched.seq {post : β → σ → Prop} {f : α → Program ε Q A β}
    (hC : C.Kept answer) (h : Watched answer C t (fun _ _ => True) p s)
    (hf : ∀ x u, C.later s u → Watched answer C t post (f x) u) :
    Watched answer C t post (p >>= f) s :=
  h.bind hC fun x u hlater _ => hf x u hlater

theorem watched_join {b : Prop} [Decidable b] {k : Program ε Q A α}
    (hC : C.Kept answer) (hk : ∀ u, C.later s u → Watched answer C t post k u)
    (hp : (∀ u, C.later s u → Watched answer C t post k u) → Watched answer C t post p s) :
    Watched answer C t post (if b then p else k) s := by
  split
  · exact hp hk
  · exact hk s (hC.refl s)

theorem Watched.imp {post' : α → σ → Prop}
    (h : Watched answer C t post p s) (himp : ∀ x s, post x s → post' x s) :
    Watched answer C t post' p s := by
  induction p generalizing s with
  | pure x => exact himp x s h
  | throw e => exact watched_throw
  | ask q next ih =>
      intro s' hvalid hrely
      obtain ⟨hneeds, hnext⟩ := h s' hvalid hrely
      exact ⟨hneeds, fun e hallowed => ih _ (hnext e hallowed)⟩

theorem Watched.kept (hC : C.Kept answer) (h : Watched answer C t post p s) :
    Watched answer C t (fun x u => C.later s u ∧ post x u) p s := by
  have hlast : ∀ s₀, C.later s₀ s → Watched answer C t (fun x u => C.later s₀ u ∧ post x u) p s := by
    induction p generalizing s with
    | pure x => exact fun s₀ hlater => ⟨hlater, h⟩
    | throw e => exact fun _ _ => watched_throw
    | ask q next ih =>
        intro s₀ hlater s' hvalid hrely
        obtain ⟨hneeds, hnext⟩ := h s' hvalid hrely
        refine ⟨hneeds, fun e hallowed => ih _ (hnext e hallowed) s₀ ?_⟩
        have hanswer := (hC.answer hvalid hneeds hallowed).2
        exact hC.trans (hC.trans hlater (hC.rely_later hrely)) hanswer
  exact hlast s (hC.refl s)

/-- Requests of a kind find what they need and keep what is known. -/
theorem Program.Keeps.watched_knowing {kind : Q → Prop} {post : α → Prop} {J : σ → Prop}
    (h : p.Keeps kind post)
    (hkind : ∀ q, kind q → ∀ u v, C.valid v → C.rely q u v → J u →
      C.needs t q v ∧ ∀ e, C.allowed t e q v → J (answer e q v).2) (hs : J s) :
    Watched answer C t (fun x u => post x ∧ J u) p s := by
  induction p generalizing s with
  | pure x => exact ⟨h, hs⟩
  | throw e => exact watched_throw
  | ask q next ih =>
      intro s' hvalid hrely
      obtain ⟨hneeds, hanswer⟩ := hkind q h.1 s s' hvalid hrely hs
      exact ⟨hneeds, fun e hallowed => ih _ (h.2 _) (hanswer e hallowed)⟩

theorem Program.Keeps.watched_catch {kind : Q → Prop} {post : α → Prop} {post' : α → σ → Prop}
    {J : σ → Prop} {f : ε → Program ε Q A α} (h : p.Keeps kind post)
    (hkind : ∀ q, kind q → ∀ u v, C.valid v → C.rely q u v → J u →
      C.needs t q v ∧ ∀ e, C.allowed t e q v → J (answer e q v).2)
    (hpure : ∀ x u, post x → J u → post' x u) (hf : ∀ e u, J u → Watched answer C t post' (f e) u)
    (hs : J s) : Watched answer C t post' (p.tryCatch f) s := by
  induction p generalizing s with
  | pure x => exact hpure x s h hs
  | throw e => exact hf e s hs
  | ask q next ih =>
      intro s' hvalid hrely
      obtain ⟨hneeds, hanswer⟩ := hkind q h.1 s s' hvalid hrely hs
      exact ⟨hneeds, fun e hallowed => ih _ (h.2 _) (hanswer e hallowed)⟩

theorem Program.Keeps.watched {post : α → Prop}
    (h : p.Keeps (fun q => ∀ s, C.needs t q s) post) (s : σ) :
    Watched answer C t (fun x _ => post x) p s := by
  induction p generalizing s with
  | pure x => exact h
  | throw e => exact watched_throw
  | ask q next ih =>
      intro s' _ _
      exact ⟨h.1 s', fun e _ => ih _ (h.2 _) _⟩

end

/-! ## Pools -/

/-- A run that meets a condition meets a weaker one. -/
theorem Along.imp {perform : α → σ → σ} {C C' : α → σ → Prop} (himp : ∀ a s, C a s → C' a s)
    {as : List α} {s : σ} (h : Along perform C as s) : Along perform C' as s := by
  induction as generalizing s with
  | nil => exact True.intro
  | cons a as ih => exact ⟨himp a s h.1, ih h.2⟩

theorem Along.between {perform : α → σ → σ} {C : α → σ → Prop} {as : List α} {s : σ}
    (h : Along perform C as s) {n m : Nat} (hle : n ≤ m) :
    Along perform C (as.take n) s ∧
      Along perform C ((as.take m).drop n) (run perform (as.take n) s) := by
  rw [← List.take_append_drop m as, Along.append] at h
  have hshort : (as.take m).take n = as.take n := by rw [List.take_take, Nat.min_eq_left hle]
  have htake := h.1
  rw [← List.take_append_drop n (as.take m), Along.append, hshort] at htake
  exact htake

variable {S : Setting ε Q A α τ σ E ι} {s : Pool ε Q A α τ σ} {C : Contract τ E Q σ}

structure Pool.Watchful (S : Setting ε Q A α τ σ E ι) (C : Contract τ E Q σ)
    (s : Pool ε Q A α τ σ) : Prop where
  world : C.valid s.world
  tasks : ∀ task ∈ s.tasks, Watched S.answer C task.tag (fun _ _ => True) task.rest s.world

/-- The waiting requests of a pool rely on what happens to the world, all but one perhaps. -/
def Pool.Relies (C : Contract τ E Q σ) (s : Pool ε Q A α τ σ) (but : Option Nat) (w : σ) : Prop :=
  ∀ i t q next, some i ≠ but → s.tasks[i]? = some ⟨t, .ask q next⟩ → C.rely q s.world w

/-- A move is allowed, and leaves alone what the waiting requests rely on. -/
def Move.Relied (S : Setting ε Q A α τ σ E ι) (C : Contract τ E Q σ) (m : Move τ E ι)
    (s : Pool ε Q A α τ σ) : Prop :=
  match m with
  | .step i e => ∀ t q next, s.tasks[i]? = some ⟨t, .ask q next⟩ →
      C.allowed t e q s.world ∧ s.Relies C (some i) (S.answer e q s.world).2
  | .outside x => C.valid (S.change x s.world) ∧ C.later s.world (S.change x s.world) ∧
      s.Relies C none (S.change x s.world)
  | _ => True

theorem Pool.Watchful.needs (hC : C.Kept S.answer) (h : s.Watchful S C) {t : τ} {q : Q}
    {next : Except ε (A q) → Program ε Q A α} (hmem : ⟨t, .ask q next⟩ ∈ s.tasks) :
    C.needs t q s.world :=
  (h.tasks _ hmem s.world h.world (hC.rely_refl q s.world)).1

/-- A program is as watched as it was once the world is what its request relies on. -/
theorem Watched.later {task : Task ε Q A α τ} {w w' : σ} (hC : C.Kept S.answer)
    (h : Watched S.answer C task.tag (fun _ _ => True) task.rest w)
    (hrely : ∀ q next, task.rest = .ask q next → C.rely q w w') :
    Watched S.answer C task.tag (fun _ _ => True) task.rest w' := by
  obtain ⟨t, rest⟩ := task
  cases rest with
  | pure x => exact True.intro
  | throw e => exact watched_throw
  | ask q next =>
      intro w'' hvalid hlater
      exact h w'' hvalid (hC.rely_trans (hrely q next rfl) hlater)

theorem Pool.Watchful.others (hC : C.Kept S.answer) (h : s.Watchful S C) {but : Option Nat} {w : σ}
    (hrelies : s.Relies C but w) {i : Nat} {task : Task ε Q A α τ} (hi : s.tasks[i]? = some task)
    (hne : some i ≠ but) : Watched S.answer C task.tag (fun _ _ => True) task.rest w := by
  refine (h.tasks task (List.mem_of_getElem? hi)).later hC fun q next hrest => ?_
  obtain ⟨t, rest⟩ := task
  obtain rfl : rest = .ask q next := hrest
  exact hrelies i t q next hne hi

/-- A move that the waiting requests rely on leaves every program watched. -/
theorem Pool.Watchful.perform (hC : C.Kept S.answer)
    (hprogram : ∀ t w, C.valid w → Watched S.answer C t (fun _ _ => True) (S.program t) w)
    (h : s.Watchful S C) {m : Move τ E ι} (hm : m.Relied S C s) :
    (s.perform S m).Watchful S C ∧ C.later s.world (s.perform S m).world := by
  generalize hs' : s.perform S m = s'
  have hcases := s.perform_cases S m
  rw [hs'] at hcases
  cases hcases with
  | idle i e => exact ⟨h, hC.refl _⟩
  | start t =>
      refine ⟨⟨h.world, fun task htask => ?_⟩, hC.refl _⟩
      rcases List.mem_append.mp htask with hold | hnew
      · exact h.tasks task hold
      · obtain rfl := List.mem_singleton.mp hnew
        exact hprogram t s.world h.world
  | step i e t q next hi =>
      obtain ⟨hallowed, hrelies⟩ := hm t q next hi
      obtain ⟨hneeds, hnext⟩ := h.tasks _ (List.mem_of_getElem? hi) s.world h.world
        (hC.rely_refl q s.world)
      obtain ⟨hvalid, hlater⟩ := hC.answer (e := e) h.world hneeds hallowed
      refine ⟨⟨hvalid, fun task htask => ?_⟩, hlater⟩
      obtain ⟨j, hj⟩ := List.mem_iff_getElem?.mp htask
      rw [List.getElem?_set] at hj
      split at hj
      next hij =>
        split at hj
        · cases hj
          exact hnext e hallowed
        · cases hj
      next hij =>
        refine h.others hC hrelies hj ?_
        rintro ⟨⟩
        exact hij rfl
  | crash i =>
      exact ⟨⟨h.world, fun task htask => h.tasks task (List.mem_of_mem_eraseIdx htask)⟩, hC.refl _⟩
  | outside x =>
      obtain ⟨hvalid, hlater, hrelies⟩ := hm
      refine ⟨⟨hvalid, fun task htask => ?_⟩, hlater⟩
      obtain ⟨j, hj⟩ := List.mem_iff_getElem?.mp htask
      exact h.others hC hrelies hj nofun

/-- What a run keeps, as long as what it does is relied on wherever the pool is watchful. -/
theorem Pool.Watchful.run (hC : C.Kept S.answer)
    (hprogram : ∀ t w, C.valid w → Watched S.answer C t (fun _ _ => True) (S.program t) w)
    {cond : Move τ E ι → Pool ε Q A α τ σ → Prop}
    (hcond : ∀ m s, s.Watchful S C → cond m s → m.Relied S C s) (h : s.Watchful S C)
    {ms : List (Move τ E ι)} (hms : Along (Pool.perform S) cond ms s) :
    (System.run (Pool.perform S) ms s).Watchful S C ∧
      C.later s.world (System.run (Pool.perform S) ms s).world := by
  induction ms generalizing s with
  | nil => exact ⟨h, hC.refl _⟩
  | cons m ms ih =>
      obtain ⟨hnext, hlater⟩ := h.perform hC hprogram (hcond m s h hms.1)
      obtain ⟨hlast, hrest⟩ := ih hnext hms.2
      exact ⟨hlast, hC.trans hlater hrest⟩

-- a program is followed request by request, not by computing it
attribute [irreducible] Watched

end System
