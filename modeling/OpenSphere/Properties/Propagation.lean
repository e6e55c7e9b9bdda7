import OpenSphere.Registry.Rules

/-!
# Propagation of registry credentials

A replica writes the pull Secrets one by one behind a fence that it only reads.  What makes this
enough is that it reads a pull Secret before it looks at the fence: a generation that is stored
after that look was not in the pull Secret when it was read, so its propagation writes the pull
Secret once more, and the resource version that the stale replica has is gone.
-/

open System (Along)

namespace Registry

variable {S : Service}
variable {tracked : Prop} {w w' : World} {dateParse : DateParse} {credentials : Option Credentials}
  {images : List String} {generation : String} {state : State}

/-- The next request of a call is for a new id. -/
def Calls.draws (s : Calls) (i : Nat) : Bool :=
  match s.tasks[i]? with
  | some ⟨_, .ask .newId _⟩ => true
  | _ => false

/-- An id that is drawn is new: it is no generation that was stored or that a pull Secret holds. -/
def Move.Fresh (m : Move) (s : Calls) : Prop :=
  match m with
  | .step i e => s.draws i = true → ¬s.world.Known e.id
  | _ => True

instance Move.Fresh.decidable : (m : Move) → (s : Calls) → Decidable (Move.Fresh m s)
  | .step i e, s => inferInstanceAs (Decidable (s.draws i = true → ¬s.world.Known e.id))
  | .start _, _ => .isTrue True.intro
  | .crash _, _ => .isTrue True.intro
  | .outside _, _ => .isTrue True.intro

theorem allowed_of_fresh {m : Move} {s : Calls} (h : Move.Fresh m s) :
    m.Allowed (discipline False) s := by
  cases m with
  | step i e =>
      intro c q next hi
      cases q with
      | newId => exact h (by rw [Calls.draws, hi])
      | poll flow => exact False.elim
      | refresh current => exact False.elim
      | _ => trivial
  | _ => trivial

/-! ## The handoff -/

theorem initialRegistryState_eq_ok
    (h : initialRegistryState dateParse credentials images generation = .ok state) :
    state = ⟨generation, credentials, images, if credentials.isSome then .pending else .anonymous,
      none, none, none, none, none, none, none⟩ := by
  obtain ⟨_, -, h⟩ := Sql.bind_eq_ok.mp h
  split at h
  · cases h
  · exact (Except.ok.inj h).symm

theorem observation_of_initial
    (h : initialRegistryState dateParse credentials images generation = .ok state) :
    state.observation = none := by
  rw [initialRegistryState_eq_ok h]

theorem handoff_valid (h : state.observation = none)
    (pulls : String → Option PullSecret) : (World.handoff state pulls).Valid tracked := by
  have hnone : ¬(World.handoff state pulls).Propagated state.generation := by
    rintro ⟨st, hst, -, hsome⟩
    obtain rfl := List.mem_singleton.mp hst
    rw [h] at hsome
    cases hsome
  refine ⟨Nat.le_refl 0, fun ns p hp => ?_, ⟨[], rfl⟩, fun _ hp => (nomatch hp),
    fun hp => absurd hp hnone, fun hp => absurd hp hnone, ?_⟩
  · obtain ⟨p', -, rfl⟩ := Option.map_eq_some_iff.mp hp
    exact Nat.le_refl 0
  · rintro (hold | ⟨-, -, hmem⟩)
    · exact hold
    · cases hmem

theorem initial_sound (tracked : Prop) (h : state.observation = none)
    (pulls : String → Option PullSecret) :
    (Calls.initial state pulls).Sound (setting S) (discipline tracked) :=
  ⟨handoff_valid h pulls, fun _ htask => (nomatch htask)⟩

/-! ## Runs -/

theorem superseded_append {history : List State} {g : String} (h : Superseded history g)
    (new : List State) : Superseded (new ++ history) g := by
  induction new with
  | nil => exact h
  | cons st new ih => exact .inl ih

/-- What is recorded stays, and no pull Secret is written for a generation that was followed by
one whose propagation was completed. -/
structure World.Grows (w w' : World) : Prop where
  history : ∃ new, w'.history = new ++ w.history
  writes : ∃ new, w'.writes = new ++ w.writes ∧ ∀ x ∈ new, ¬Superseded w.history x.2

theorem World.Grows.refl (w : World) : w.Grows w :=
  ⟨⟨[], rfl⟩, [], rfl, fun _ hx => (nomatch hx)⟩

theorem World.Grows.trans {w'' : World} (h : w.Grows w') (h' : w'.Grows w'') :
    w.Grows w'' := by
  obtain ⟨⟨states, hstates⟩, writes, hwrites, hlast⟩ := h
  obtain ⟨⟨states', hstates'⟩, writes', hwrites', hlast'⟩ := h'
  refine ⟨⟨states' ++ states, ?_⟩, writes' ++ writes, ?_, fun x hx => ?_⟩
  · rw [hstates', hstates, List.append_assoc]
  · rw [hwrites', hwrites, List.append_assoc]
  · rcases List.mem_append.mp hx with hnew | hold
    · intro hsuperseded
      refine hlast' x hnew ?_
      rw [hstates]
      exact superseded_append hsuperseded states
    · exact hlast x hold

theorem World.Change.grows (h : World.Change tracked w w') :
    w.Grows w' := by
  cases h with
  | none hauth hhistory hwrites =>
      exact ⟨⟨[], hhistory⟩, [], hwrites, fun _ hx => (nomatch hx)⟩
  | stored effect htransition htoken hhistory hwrites =>
      exact ⟨⟨[_], hhistory⟩, [], hwrites, fun _ hx => (nomatch hx)⟩
  | written ns g hlast hauth hhistory hwrites =>
      refine ⟨⟨[], hhistory⟩, [(ns, g)], hwrites, fun x hx => ?_⟩
      obtain rfl := List.mem_singleton.mp hx
      exact hlast

/-- Without credentials a state is anonymous, or to be authorized, or there is an operation. -/
def State.Vacant (st : State) : Prop :=
  st.credentials = none → st.operation = none →
    st.phase = .anonymous ∨ st.phase = .reauthorizationRequired

theorem Transition.vacant {effect : Effect} {st st' : State} (h : Transition effect st st')
    (hst : st.Vacant) : st'.Vacant := by
  intro hcredentials hoperation
  cases h with
  | images images hidle =>
      have hnone : st.credentials = none := hcredentials
      simp only [State.withImages, hnone]
      split
      · exact .inr rfl
      · exact .inl rfl
  | begin | removed => cases hoperation
  | started operation flow hsome =>
      have hnone : st.operation = none := hoperation
      rw [hnone] at hsome
      cases hsome
  | startFailed =>
      have hnone : st.credentials = none := hcredentials
      simp only [State.startFailed, hnone]
      exact .inr rfl
  | replaced | authorized | refreshed => cases hcredentials
  | interrupted => exact .inr rfl
  | takenOn | polled => exact hst hcredentials hoperation
  | propagated before verifiedAt namespaces hdue hpending hdoing hbefore =>
      have hnone : before.credentials = none := hbefore.trans hcredentials
      simp only [State.propagated, hnone]
      exact .inl rfl
  | failed before reauthorize code retryAt hpropagating =>
      cases reauthorize with
      | true => exact .inr rfl
      | false =>
          obtain ⟨hdue, -, -, hsame⟩ := hpropagating rfl
          have hnone : st.operation = none := hsame.symm.trans hoperation
          rcases hst hcredentials hnone with hanonymous | hreauthorize
          · have hsome := hdue.operation hanonymous
            rw [hnone] at hsome
            cases hsome
          · exact absurd hreauthorize hdue.phase

/-- The state is ready, or anonymous, and without an operation. -/
structure State.Settled (st : State) : Prop where
  phase : st.phase = .ready ∨ st.phase = .anonymous
  operation : st.operation = none

/-- Where a state comes from that is settled: its propagation was just completed, or it had
no operation before and kept what was seen of the pull Secrets or lost it with its images. -/
theorem Transition.settled {effect : Effect} {st st' : State} (h : Transition effect st st')
    (hst : st.Vacant) (hst' : st'.Settled) :
    st'.observation.isSome = true ∨ st.Settled ∧ st'.generation = st.generation ∧
      (st'.observation = st.observation ∨ st'.observation = none) := by
  obtain ⟨hphase, hoperation⟩ := hst'
  cases h with
  | images images hidle =>
      refine .inr ⟨⟨?_, hoperation⟩, rfl, .inr rfl⟩
      cases hcredentials : st.credentials with
      | some c =>
          simp only [State.withImages, hcredentials] at hphase
          split at hphase <;> rcases hphase with h | h <;> cases h
      | none =>
          rcases hst hcredentials hoperation with hanonymous | hreauthorize
          · exact .inr hanonymous
          · simp only [State.withImages, hreauthorize] at hphase
            rcases hphase with h | h <;> cases h
  | begin | replaced | removed => cases hoperation
  | started | interrupted | authorized | refreshed => rcases hphase with h | h <;> cases h
  | startFailed =>
      simp only [State.startFailed] at hphase
      split at hphase <;> rcases hphase with h | h <;> cases h
  | takenOn | polled => exact .inr ⟨⟨hphase, hoperation⟩, rfl, .inl rfl⟩
  | propagated => exact .inl rfl
  | failed before reauthorize =>
      simp only [State.failed] at hphase
      split at hphase <;> rcases hphase with h | h <;> cases h

/-- The propagation of a settled state was completed, unless no propagation was. -/
structure World.Steady (w : World) : Prop where
  vacant : w.auth.state.Vacant
  settled : w.auth.state.Settled → (∃ g, w.Propagated g) → w.Propagated w.auth.state.generation

theorem handoff_steady
    (h : initialRegistryState dateParse credentials images generation = .ok state)
    (pulls : String → Option PullSecret) : (World.handoff state pulls).Steady := by
  obtain rfl := initialRegistryState_eq_ok h
  refine ⟨fun hnone _ => .inl ?_, fun _ ⟨g, st, hst, _, hsome⟩ => ?_⟩
  · replace hnone : credentials = none := hnone
    subst hnone
    rfl
  · obtain rfl := List.mem_singleton.mp hst
    cases hsome

theorem World.Change.steady (h : World.Change tracked w w')
    (hstored : ∃ rest, w.history = w.auth.state :: rest) (hw : w.Steady) : w'.Steady := by
  have hsame : w'.auth = w.auth → w'.history = w.history → w'.Steady := by
    intro hauth hhistory
    have hpropagated : ∀ g, w'.Propagated g ↔ w.Propagated g := fun g => by
      rw [World.Propagated, World.Propagated, hhistory]
    refine ⟨hauth ▸ hw.vacant, ?_⟩
    simp only [hpropagated]
    exact hauth ▸ hw.settled
  cases h with
  | none hauth hhistory => exact hsame hauth hhistory
  | written ns g hlast hauth hhistory => exact hsame hauth hhistory
  | stored effect htransition htoken hhistory =>
      refine ⟨htransition.vacant hw.vacant, fun hsettled hany => ?_⟩
      have hmem : w'.auth.state ∈ w'.history := by
        rw [hhistory]
        exact List.mem_cons_self ..
      rcases htransition.settled hw.vacant hsettled with hsome | ⟨hold, hgeneration, hobservation⟩
      · exact ⟨w'.auth.state, hmem, rfl, hsome⟩
      · have hbefore : ∃ g, w.Propagated g := by
          obtain ⟨g, st, hst, hg, hsome⟩ := hany
          rw [hhistory] at hst
          rcases List.mem_cons.mp hst with rfl | hst
          · obtain ⟨rest, hrest⟩ := hstored
            refine ⟨w.auth.state.generation, w.auth.state, ?_, rfl, ?_⟩
            · rw [hrest]
              exact List.mem_cons_self ..
            · rcases hobservation with hkept | hlost
              · rw [← hkept, hsome]
              · rw [hlost] at hsome
                cases hsome
          · exact ⟨g, st, hst, hg, hsome⟩
        obtain ⟨st, hst, hg, hsome⟩ := hw.settled hold hbefore
        refine ⟨st, ?_, hg.trans hgeneration.symm, hsome⟩
        rw [hhistory]
        exact List.mem_cons_of_mem _ hst

theorem run_sound {s : Calls} {ms : List Move} (h : s.Sound (setting S) (discipline False))
    (hsteady : s.world.Steady)
    (hms : Along (System.Pool.perform (setting S)) Move.Fresh ms s) :
    (s.after S ms).Sound (setting S) (discipline False) ∧ (s.after S ms).world.Steady ∧
      s.world.Grows (s.after S ms).world := by
  refine Along.invariant (I := fun t : Calls => t.Sound (setting S) (discipline False) ∧
    t.world.Steady ∧ s.world.Grows t.world) (fun m t ht hm => ?_) hms ⟨h, hsteady, .refl _⟩
  obtain ⟨hsound, hsteady, hgrows⟩ := ht
  obtain ⟨hsound', hstep⟩ := hsound.perform (setting_fits S False) (allowed_of_fresh hm)
  refine ⟨hsound', ?_⟩
  rcases hstep with hsame | hstep
  · rw [hsame]
    exact ⟨hsteady, hgrows⟩
  · exact ⟨hstep.change.steady hsound.world.stored hsteady, hgrows.trans hstep.change.grows⟩

/-! ## Propagation -/

/-- A pull Secret holds the data and the annotation of a generation. -/
def World.HoldsGeneration (w : World) (credentials : Option Credentials) (g ns : String) : Prop :=
  ∃ p, w.pulls ns = some p ∧ p.generation = some g ∧
    p.dockerconfigjson = some (pullSecretData credentials g)

/-- The pull Secrets that were written since an earlier world, with the generations. -/
def World.writesSince (w w' : World) : List (String × String) :=
  w'.writes.take (w'.writes.length - w.writes.length)

/-- Registry credentials are propagated.  In every run of any number of replicas, with crashes,
lost answers and writes that arrive late: where the stored state is ready, or anonymous, and has no
operation, after any propagation was completed, the one of its generation was, all pull Secrets
hold that generation, and from then on no pull Secret is written for a generation that was stored
before. -/
theorem registry_propagation (S : Service) {credentials : Option Credentials}
    {images : List String} {generation : String} {state : State}
    (hstate : initialRegistryState S.dateParse credentials images generation = .ok state)
    (pulls : String → Option PullSecret) {ms : List Move}
    (hms : Along (System.Pool.perform (setting S)) Move.Fresh ms (Calls.initial state pulls))
    {w : World} (hw : ((Calls.initial state pulls).after S ms).world = w)
    (hsettled : w.auth.state.Settled) (hany : ∃ g, w.Propagated g) :
    w.Propagated w.auth.state.generation ∧
      (∀ ns ∈ registryNamespaces,
        w.HoldsGeneration w.auth.state.credentials w.auth.state.generation ns) ∧
      ∀ ms', Along (System.Pool.perform (setting S)) Move.Fresh ms'
          ((Calls.initial state pulls).after S ms) →
        ∀ x ∈ w.writesSince (((Calls.initial state pulls).after S ms).after S ms').world,
          x.2 = w.auth.state.generation ∨ x.2 ∉ w.generations := by
  have hstart := initial_sound (S := S) False (observation_of_initial hstate) pulls
  obtain ⟨hsound, hsteady, -⟩ := run_sound hstart (handoff_steady hstate pulls) hms
  generalize (Calls.initial state pulls).after S ms = s at hsound hsteady hw ⊢
  subst hw
  have hpropagated := hsteady.settled hsettled hany
  refine ⟨hpropagated, fun ns hns => hsound.world.holds hpropagated ns hns,
    fun ms' hms' x hx => ?_⟩
  obtain ⟨-, -, hgrows⟩ := run_sound hsound hsteady hms'
  obtain ⟨new, hwrites, hlast⟩ := hgrows.writes
  have hnew : x ∈ new := by
    rw [World.writesSince, hwrites, List.length_append, Nat.add_sub_cancel, List.take_left] at hx
    exact hx
  by_cases heq : x.2 = s.world.auth.state.generation
  · exact .inl heq
  · right
    intro hmem
    exact hlast x hnew (hsound.world.superseded hpropagated x.2 hmem heq)

namespace Demo

def service : Service where
  dateParse _ := some 0
  isoDate _ := "1970-01-01T00:00:00.000Z"
  clientId := "OpenSphereClientId"
  audited := true
  installation := false

def operation : Operation := ⟨"operation", "actor", "session"⟩

/-- Everything is answered, and the clock stands still. -/
def stamp (id : String) : Stamp where
  fate := .answered
  clock := 0
  id := id
  images := .ok []
  authority := .ok ()
  audit := .ok ()
  replies := ⟨.error (.plain "unavailable"), .error (.plain "unavailable"), 0⟩
  verified := .ok ()

def anonymous : State := ⟨"g-0", none, [], .anonymous, none, none, none, none, none, none, none⟩

def empty : String → Option PullSecret := fun _ =>
  some ⟨0, "kubernetes.io/dockerconfigjson", none, none⟩

/-- A call of `remove`, and the call of `tick` that propagates its generation. -/
def removal : List Move :=
  .start (.remove operation) :: List.replicate 4 (.step 0 (stamp "g-1")) ++
    .start .tick :: List.replicate 36 (.step 1 (stamp "work"))

end Demo

theorem removal_propagated :
    ((Calls.initial Demo.anonymous Demo.empty).after Demo.service Demo.removal).world.auth.state.phase =
        .anonymous ∧
      ∀ ns ∈ registryNamespaces,
        ((Calls.initial Demo.anonymous Demo.empty).after Demo.service
          Demo.removal).world.HoldsGeneration none "g-1" ns := by
  have hstate : initialRegistryState Demo.service.dateParse none [] "g-0" = .ok Demo.anonymous := rfl
  have hms : Along (System.Pool.perform (setting Demo.service)) Move.Fresh Demo.removal
      (Calls.initial Demo.anonymous Demo.empty) := by decide
  generalize hw : ((Calls.initial Demo.anonymous Demo.empty).after Demo.service Demo.removal).world = w
  have hphase : w.auth.state.phase = .anonymous := hw ▸ by decide
  have hoperation : w.auth.state.operation = none := hw ▸ by decide
  have hpropagated : w.Propagated "g-1" := hw ▸ by decide
  have hcredentials : w.auth.state.credentials = none := hw ▸ by decide
  have hgeneration : w.auth.state.generation = "g-1" := hw ▸ by decide
  have hholds := (registry_propagation Demo.service hstate Demo.empty hms hw
    ⟨.inr hphase, hoperation⟩ ⟨"g-1", hpropagated⟩).2.1
  rw [hcredentials, hgeneration] at hholds
  exact ⟨hphase, hholds⟩

end Registry
