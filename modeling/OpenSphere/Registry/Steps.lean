import OpenSphere.Registry.System

/-!
# What the replicas may do

`Transition` lists the writes of the state that the broker makes, with what each of them does to
the credentials.  A replica knows about the world what it has read, which is a `Fact`: it says
something of the Secrets for as long as their resource versions are the ones that were read, so
nothing that another replica does makes it wrong (`receive_later`).

A write is `Proper` where the facts allow it: a new generation is one that was never stored, a
propagation is recorded only after all pull Secrets were seen to hold it, and a pull Secret is
written only after the fence was seen to be up when its version was already known.
-/

open System (Program)

namespace Registry

variable {p : Put} {w' : World} {ns : String} {secret : PullSecret} {version : Nat}

/-! ## The writes of the state -/

inductive Effect where
  | keep
  | renew
  | complete

def State.doing (st : State) (kind : WorkKind) : Prop := ∃ work, st.work = some work ∧ work.kind = kind

structure State.Idle (st : State) : Prop where
  work : st.work = none
  pending : st.pending = none

/-- The work that `tick` may take on. -/
def State.Ripe (st : State) : WorkKind → Prop
  | .deviceStart => False
  | .devicePoll => st.pending.isSome = true
  | .refresh => st.pending = none
  | .propagate => st.pending = none

/-- The state may need work: it is neither to be authorized again nor settled on having no
credentials. -/
structure State.Due (st : State) : Prop where
  phase : st.phase ≠ .reauthorizationRequired
  operation : st.phase = .anonymous → st.operation.isSome = true

inductive Transition : Effect → State → State → Prop where
  | images {st : State} (images : List String) :
      st.Idle → Transition .keep st (st.withImages images)
  | begin {st : State} (operation : Operation) (id : String) (startedAt : Int) :
      st.Idle → Transition .keep st { st with
        operation := some operation
        work := some ⟨id, .deviceStart, startedAt⟩
        errorCode := none }
  | started {st : State} (operation : Operation) (flow : Flow) :
      st.operation.isSome = true → Transition .keep st { st with
        work := none
        pending := some ⟨operation, flow⟩
        phase := .awaitingAuthorization }
  | startFailed {st : State} :
      st.doing .deviceStart → st.pending = none → Transition .keep st st.startFailed
  | replaced {st : State} (c : Credentials) (id : String) (operation : Operation) :
      st.Idle → c.refreshToken = none → Transition .renew st
        { st.renewed (some c) id .pending with operation := some operation }
  | removed {st : State} (id : String) (operation : Operation) :
      st.Idle → Transition .renew st
        { st.renewed none id .removing with operation := some operation }
  | interrupted {st : State} : Transition .keep st st.interrupted
  | takenOn {st : State} (work : Work) :
      st.work = none → st.Due → st.Ripe work.kind → Transition .keep st { st with work := some work, retryAt := none }
  | polled {st : State} (pending : Pending) :
      Transition .keep st { st with work := none, pending := some pending }
  | authorized {st : State} (c : Credentials) (id : String) :
      Transition .renew st
        { st.renewed (some c) id .pending with work := none, pending := none }
  | refreshed {st : State} (c : Credentials) (id : String) (rotation : Rotation) :
      Transition .renew st
        { st.renewed (some c) id .pending with work := none, rotation := some rotation }
  | propagated {st : State} (before : State) (verifiedAt : String) (namespaces : List String) :
      st.Due → st.pending = none → st.doing .propagate → before.credentials = st.credentials →
      Transition .complete st (st.propagated before verifiedAt namespaces)
  | failed {st : State} (before : State) (reauthorize : Bool) (code : String) (retryAt : Int) :
      (reauthorize = false → st.Due ∧ st.pending = none ∧ st.doing .propagate ∧
        before.operation = st.operation) →
      Transition .keep st (st.failed before reauthorize code retryAt)

section

variable {st st' : State}

theorem Transition.kept (h : Transition .keep st st') :
    st'.generation = st.generation ∧ st'.credentials = st.credentials ∧
      (st'.observation = none ∨ st'.observation = st.observation) := by
  cases h with
  | images images hidle => exact ⟨rfl, rfl, .inl rfl⟩
  | _ => exact ⟨rfl, rfl, .inr rfl⟩

theorem Transition.renewed (h : Transition .renew st st') : st'.observation = none := by
  cases h <;> rfl

theorem Transition.completed (h : Transition .complete st st') :
    st'.generation = st.generation ∧ st'.credentials = st.credentials := by
  cases h
  exact ⟨rfl, rfl⟩

end

/-! ## Generations -/

def World.generations (w : World) : List String := w.history.map State.generation

/-- The generations that were stored or that a pull Secret holds. -/
def World.Known (w : World) (g : String) : Prop :=
  g ∈ w.generations ∨ ∃ ns ∈ registryNamespaces, (w.pulls ns).bind PullSecret.generation = some g

instance (w : World) (g : String) : Decidable (w.Known g) := inferInstanceAs (Decidable (_ ∨ _))

def World.tokens (w : World) : List String := w.history.filterMap State.refreshToken

def World.Propagated (w : World) (g : String) : Prop :=
  ∃ st ∈ w.history, st.generation = g ∧ st.observation.isSome = true

instance (w : World) (g : String) : Decidable (w.Propagated g) :=
  inferInstanceAs (Decidable (∃ st ∈ w.history, st.generation = g ∧ st.observation.isSome = true))

/-- A generation was followed by one whose propagation was completed. -/
def Superseded : List State → String → Prop
  | [], _ => False
  | st :: history, g => Superseded history g ∨
      (st.observation.isSome = true ∧ st.generation ≠ g ∧ g ∈ history.map State.generation)

theorem mem_of_superseded {history : List State} {g : String} (h : Superseded history g) :
    g ∈ history.map State.generation := by
  induction history with
  | nil => exact h.elim
  | cons st history ih =>
      rcases h with hold | ⟨-, -, hmem⟩
      · exact List.mem_cons_of_mem _ (ih hold)
      · exact List.mem_cons_of_mem _ hmem

/-- The pull Secret of a namespace holds the stored credentials. -/
def World.Holds (w : World) (ns : String) : Prop :=
  ∃ p, w.pulls ns = some p ∧ p.generation = some w.auth.state.generation ∧
    p.dockerconfigjson = some w.auth.state.dockerconfigjson

/-! ## Facts -/

inductive Fact where
  /-- The state of a resource version. -/
  | read (version : Nat) (state : State)
  /-- A generation was never stored. -/
  | unused (version : Nat) (generation : String)
  /-- A refresh token was never stored. -/
  | unseen (version : Nat) (token : String)
  /-- A pull Secret was seen to hold the stored credentials. -/
  | verified (version : Nat) (ns : String)
  /-- A resource version that was given. -/
  | given (version : Nat)
  /-- A pull Secret may be written. -/
  | armed (ns : String) (secret : PullSecret)

/-- Something holds of the world for as long as the state has a resource version. -/
def World.While (w : World) (version : Nat) (Q : Prop) : Prop :=
  version ≤ w.revision ∧ (w.auth.version = version → Q)

/-- A pull Secret that may be written: its generation was stored, its data are those of the
generation, and if it is the one to replace then no later generation is there or was. -/
structure World.Armed (w : World) (ns : String) (secret : PullSecret) : Prop where
  place : ns ∈ registryNamespaces
  version : secret.version ≤ w.revision
  stored : ∃ g ∈ w.generations, secret.generation = some g
  data : secret.generation = some w.auth.state.generation →
    secret.dockerconfigjson = some w.auth.state.dockerconfigjson
  current : ∀ p, w.pulls ns = some p → p.version = secret.version →
    secret.generation = some w.auth.state.generation ∨
      p.generation ≠ some w.auth.state.generation
  last : ∀ p, w.pulls ns = some p → p.version = secret.version →
    ∀ g, secret.generation = some g → ¬Superseded w.history g

def Fact.Holds (w : World) : Fact → Prop
  | .read version state => w.While version (w.auth.state = state)
  | .unused version generation => w.While version (¬w.Known generation)
  | .unseen version token => w.While version (token ∉ w.tokens)
  | .verified version ns => w.While version (w.Holds ns)
  | .given version => version ≤ w.revision
  | .armed ns secret => w.Armed ns secret

def World.Later (w w' : World) : Prop := ∀ f : Fact, f.Holds w → f.Holds w'

theorem World.Later.refl (w : World) : w.Later w := fun _ h => h

theorem World.Later.trans {w w'' : World} (h : w.Later w') (h' : w'.Later w'') : w.Later w'' :=
  fun f hf => h' f (h f hf)

/-- The facts that allow a write.  `tracked` is for a provider that issues no refresh token
twice. -/
def Put.Proper (tracked : Prop) (w : World) : Put → Prop
  | .state version st' => ∃ st effect, (Fact.read version st).Holds w ∧
      Transition effect st st' ∧
      match effect with
      | .keep => True
      | .renew => (Fact.unused version st'.generation).Holds w ∧
          (tracked → ∀ t, st'.refreshToken = some t → (Fact.unseen version t).Holds w)
      | .complete => ∀ ns ∈ registryNamespaces, (Fact.verified version ns).Holds w
  | .pull ns secret => (Fact.armed ns secret).Holds w

theorem Put.Proper.later {tracked : Prop} {w : World} (h : p.Proper tracked w)
    (hlater : w.Later w') : p.Proper tracked w' := by
  cases p with
  | pull ns secret => exact hlater (.armed ns secret) h
  | state version st' =>
      obtain ⟨st, effect, hread, htransition, heffect⟩ := h
      refine ⟨st, effect, hlater _ hread, htransition, ?_⟩
      cases effect with
      | keep => trivial
      | renew => exact ⟨hlater _ heffect.1, fun ht t htoken => hlater _ (heffect.2 ht t htoken)⟩
      | complete => exact fun ns hns => hlater _ (heffect ns hns)

/-- What holds between any two steps. -/
structure World.Valid (tracked : Prop) (w : World) : Prop where
  version : w.auth.version ≤ w.revision
  versions : ∀ ns p, w.pulls ns = some p → p.version ≤ w.revision
  stored : ∃ rest, w.history = w.auth.state :: rest
  flight : ∀ p ∈ w.flight, p.Proper tracked w
  holds : w.Propagated w.auth.state.generation → ∀ ns ∈ registryNamespaces, w.Holds ns
  superseded : w.Propagated w.auth.state.generation → ∀ g ∈ w.generations,
    g ≠ w.auth.state.generation → Superseded w.history g
  last : ¬Superseded w.history w.auth.state.generation

/-! ## Storing -/

section

variable {tracked : Prop} {w : World}

/-- A write of the state that is accepted keeps the credentials, and all pull Secrets hold them
if it says that they were seen to, or it brings a generation that was never there. -/
theorem Put.Proper.accepted {st' : State} (hw : w.Valid tracked)
    (h : (Put.state version st').Proper tracked w) (hversion : w.auth.version = version) :
    (st'.generation = w.auth.state.generation ∧ st'.credentials = w.auth.state.credentials ∧
        (st'.observation.isSome = true → ∀ ns ∈ registryNamespaces, w.Holds ns)) ∨
      (¬w.Known st'.generation ∧ st'.observation = none) := by
  obtain ⟨st, effect, hread, htransition, heffect⟩ := h
  obtain rfl := hread.2 hversion
  cases effect with
  | renew => exact .inr ⟨heffect.1.2 hversion, htransition.renewed⟩
  | complete =>
      obtain ⟨hgeneration, hcredentials⟩ := htransition.completed
      exact .inl ⟨hgeneration, hcredentials, fun _ ns hns => (heffect ns hns).2 hversion⟩
  | keep =>
      obtain ⟨hgeneration, hcredentials, hobservation⟩ := htransition.kept
      refine .inl ⟨hgeneration, hcredentials, fun hsome => hw.holds ?_⟩
      obtain ⟨rest, hhistory⟩ := hw.stored
      refine ⟨w.auth.state, by rw [hhistory]; exact List.mem_cons_self .., rfl, ?_⟩
      rcases hobservation with hnone | hsame
      · rw [hnone] at hsome
        cases hsome
      · rw [← hsame, hsome]

theorem storeState_later {st' : State} (hw : w.Valid tracked)
    (h : (Put.state version st').Proper tracked w) (hversion : w.auth.version = version) :
    w.Later (w.store (.state version st')) := by
  have hwhile : ∀ {v : Nat} {Q Q' : Prop}, w.While v Q →
      (w.store (.state version st')).While v Q' := by
    intro v Q Q' hv
    refine ⟨Nat.le_succ_of_le hv.1, fun heq => ?_⟩
    exact absurd hv.1 (Nat.not_le.mpr (heq ▸ Nat.lt_succ_self w.revision))
  intro f hf
  cases f with
  | read v st | unused v g | unseen v t | verified v ns => exact hwhile hf
  | given v => exact Nat.le_succ_of_le hf
  | armed ns secret =>
      obtain ⟨g, hg, hsecret⟩ := hf.stored
      rcases h.accepted hw hversion with ⟨hgeneration, hcredentials, hholds⟩ | ⟨hunknown, hnone⟩
      · refine ⟨hf.place, Nat.le_succ_of_le hf.version, ⟨g, List.mem_cons_of_mem _ hg, hsecret⟩,
          fun hcurrent => ?_, fun p hp hversion => ?_, fun p hp hversion g' hg' => ?_⟩
        · show secret.dockerconfigjson = some (pullSecretData st'.credentials st'.generation)
          rw [hgeneration, hcredentials]
          exact hf.data (hcurrent.trans (congrArg some hgeneration))
        · show secret.generation = some st'.generation ∨ p.generation ≠ some st'.generation
          rw [hgeneration]
          exact hf.current p hp hversion
        · rintro (hold | ⟨hsome, hne, -⟩)
          · exact hf.last p hp hversion g' hg' hold
          · -- all pull Secrets hold the stored generation, so this is the one that is written
            obtain ⟨p', hp', hgeneration', -⟩ := hholds hsome ns hf.place
            obtain rfl : p = p' := Option.some.inj (hp.symm.trans hp')
            rcases hf.current p hp hversion with hsame | hother
            · rw [hg'] at hsame
              exact hne (hgeneration.trans (Option.some.inj hsame).symm)
            · exact hother hgeneration'
      · refine ⟨hf.place, Nat.le_succ_of_le hf.version, ⟨g, List.mem_cons_of_mem _ hg, hsecret⟩,
          fun hcurrent => ?_, fun p hp hversion => .inr fun hp' => ?_,
          fun p hp hversion g' hg' => ?_⟩
        · obtain rfl : g = st'.generation := Option.some.inj (hsecret.symm.trans hcurrent)
          exact absurd (.inl hg) hunknown
        · replace hp : w.pulls ns = some p := hp
          refine hunknown (.inr ⟨ns, hf.place, ?_⟩)
          rw [hp]
          exact hp'
        · rintro (hold | ⟨hsome, -, -⟩)
          · exact hf.last p hp hversion g' hg' hold
          · rw [hnone] at hsome
            cases hsome

theorem storeState_valid {st' : State} (hw : w.Valid tracked)
    (h : (Put.state version st').Proper tracked w) (hversion : w.auth.version = version) :
    (w.store (.state version st')).Valid tracked := by
  have hlater := storeState_later hw h hversion
  -- a generation that was propagated is the old one, and the pull Secrets hold it
  have hpropagated : (w.store (.state version st')).Propagated st'.generation →
      st'.generation = w.auth.state.generation ∧ st'.credentials = w.auth.state.credentials ∧
        (st'.observation.isSome = true ∨ w.Propagated w.auth.state.generation) ∧
        ∀ ns ∈ registryNamespaces, w.Holds ns := by
    rintro ⟨s, hs, hgeneration', hsome⟩
    rcases h.accepted hw hversion with ⟨hgeneration, hcredentials, hholds⟩ | ⟨hunknown, hnone⟩
    · refine ⟨hgeneration, hcredentials, ?_⟩
      rcases List.mem_cons.mp hs with rfl | hold
      · exact ⟨.inl hsome, hholds hsome⟩
      · have hpropagated : w.Propagated w.auth.state.generation :=
          ⟨s, hold, hgeneration'.trans hgeneration, hsome⟩
        exact ⟨.inr hpropagated, hw.holds hpropagated⟩
    · rcases List.mem_cons.mp hs with rfl | hold
      · rw [hnone] at hsome
        cases hsome
      · exact absurd (.inl (List.mem_map.mpr ⟨s, hold, hgeneration'⟩)) hunknown
  refine ⟨Nat.le_refl _, fun ns p hp => Nat.le_succ_of_le (hw.versions ns p hp), ⟨_, rfl⟩,
    fun p hp => (hw.flight p hp).later hlater, fun hp ns hns => ?_, fun hp g hg hne => ?_, ?_⟩
  · obtain ⟨hgeneration, hcredentials, -, hholds⟩ := hpropagated hp
    obtain ⟨p, hp, hpull, hdata⟩ := hholds ns hns
    refine ⟨p, hp, hpull.trans (congrArg some hgeneration.symm), hdata.trans ?_⟩
    show _ = some (pullSecretData st'.credentials st'.generation)
    rw [hgeneration, hcredentials]
    rfl
  · obtain ⟨hgeneration, -, hcases, -⟩ := hpropagated hp
    have hold : g ∈ w.generations := by
      rcases List.mem_cons.mp hg with rfl | hold
      · exact absurd rfl hne
      · exact hold
    rcases hcases with hsome | hpropagated
    · exact .inr ⟨hsome, Ne.symm hne, hold⟩
    · exact .inl (hw.superseded hpropagated g hold fun heq => hne (heq.trans hgeneration.symm))
  · rintro (hold | ⟨-, hne, -⟩)
    · replace hold : Superseded w.history st'.generation := hold
      rcases h.accepted hw hversion with ⟨hgeneration, -, -⟩ | ⟨hunknown, -⟩
      · rw [hgeneration] at hold
        exact hw.last hold
      · exact hunknown (.inl (mem_of_superseded hold))
    · exact hne rfl

/-- A pull Secret that holds the stored credentials does so after a write that is accepted. -/
theorem storePull_holds {ns' : String} (h : w.Armed ns secret)
    (haccepted : (Put.pull ns secret).accepted w = true) (hholds : w.Holds ns') :
    (w.store (.pull ns secret)).Holds ns' := by
  obtain ⟨p, hp, hversion⟩ := (Option.any_eq_true _ _).mp haccepted
  obtain ⟨p', hp', hgeneration, hdata⟩ := hholds
  by_cases hns : ns' = ns
  · subst hns
    obtain rfl : p = p' := Option.some.inj (hp.symm.trans hp')
    refine ⟨{ secret with version := w.revision + 1 }, Function.update_self .., ?_⟩
    rcases h.current p hp (beq_iff_eq.mp hversion) with hsame | hother
    · exact ⟨hsame, h.data hsame⟩
    · exact absurd hgeneration hother
  · refine ⟨p', ?_, hgeneration, hdata⟩
    show Function.update w.pulls ns _ ns' = some p'
    rw [Function.update_of_ne hns, hp']

theorem storePull_later (h : w.Armed ns secret)
    (haccepted : (Put.pull ns secret).accepted w = true) :
    w.Later (w.store (.pull ns secret)) := by
  have hwhile : ∀ {v : Nat} {Q Q' : Prop}, w.While v Q → (Q → Q') →
      (w.store (.pull ns secret)).While v Q' := fun hv himp =>
    ⟨Nat.le_succ_of_le hv.1, fun heq => himp (hv.2 heq)⟩
  have hknown : ∀ g, (w.store (.pull ns secret)).Known g → w.Known g := by
    rintro g (hold | ⟨ns', hns', hg⟩)
    · exact .inl hold
    · replace hg : (Function.update w.pulls ns (some { secret with version := w.revision + 1 })
        ns').bind PullSecret.generation = some g := hg
      by_cases hns : ns' = ns
      · subst hns
        rw [Function.update_self] at hg
        obtain ⟨g', hg', hsecret⟩ := h.stored
        obtain rfl : g' = g := Option.some.inj (hsecret.symm.trans hg)
        exact .inl hg'
      · rw [Function.update_of_ne hns] at hg
        exact .inr ⟨ns', hns', hg⟩
  intro f hf
  cases f with
  | read v st => exact hwhile hf id
  | unused v g => exact hwhile hf fun hunknown hnew => hunknown (hknown g hnew)
  | unseen v t => exact hwhile hf id
  | verified v ns' => exact hwhile hf (storePull_holds h haccepted)
  | given v => exact Nat.le_succ_of_le hf
  | armed ns' secret' =>
      -- a Secret that was just written has a version that nobody has read
      have hold : ∀ p, (w.store (.pull ns secret)).pulls ns' = some p →
          p.version = secret'.version → w.pulls ns' = some p := by
        intro p hp hversion
        replace hp : Function.update w.pulls ns (some { secret with version := w.revision + 1 }) ns' =
          some p := hp
        by_cases hns : ns' = ns
        · subst hns
          rw [Function.update_self] at hp
          cases hp
          exact absurd hf.version (Nat.not_le.mpr (hversion ▸ Nat.lt_succ_self w.revision))
        · rwa [Function.update_of_ne hns] at hp
      exact ⟨hf.place, Nat.le_succ_of_le hf.version, hf.stored, hf.data,
        fun p hp hversion => hf.current p (hold p hp hversion) hversion,
        fun p hp hversion => hf.last p (hold p hp hversion) hversion⟩

theorem storePull_valid (hw : w.Valid tracked)
    (h : w.Armed ns secret) (haccepted : (Put.pull ns secret).accepted w = true) :
    (w.store (.pull ns secret)).Valid tracked := by
  have hlater := storePull_later h haccepted
  refine ⟨Nat.le_succ_of_le hw.version, fun ns' p hp => ?_, hw.stored,
    fun p hp => (hw.flight p hp).later hlater,
    fun hp ns' hns => storePull_holds h haccepted (hw.holds hp ns' hns), hw.superseded, hw.last⟩
  replace hp : Function.update w.pulls ns (some { secret with version := w.revision + 1 }) ns' =
    some p := hp
  by_cases hns : ns' = ns
  · subst hns
    rw [Function.update_self] at hp
    cases hp
    exact Nat.le_refl _
  · rw [Function.update_of_ne hns] at hp
    exact Nat.le_succ_of_le (hw.versions ns' p hp)

/-! ## Changes of the world -/

inductive World.Change (tracked : Prop) (w w' : World) : Prop where
  | none : w'.auth = w.auth → w'.history = w.history → w'.writes = w.writes →
      World.Change tracked w w'
  | stored (effect : Effect) : Transition effect w.auth.state w'.auth.state →
      (tracked → effect = .renew → ∀ t, w'.auth.state.refreshToken = some t → t ∉ w.tokens) →
      w'.history = w'.auth.state :: w.history → w'.writes = w.writes → World.Change tracked w w'
  | written (ns g : String) : ¬Superseded w.history g → w'.auth = w.auth →
      w'.history = w.history → w'.writes = (ns, g) :: w.writes → World.Change tracked w w'

structure World.Step (tracked : Prop) (w w' : World) : Prop where
  valid : w'.Valid tracked
  later : w.Later w'
  change : World.Change tracked w w'

theorem World.Step.refl (hw : w.Valid tracked) : w.Step tracked w :=
  ⟨hw, .refl w, .none rfl rfl rfl⟩

theorem store_step (hw : w.Valid tracked) (h : p.Proper tracked w)
    (haccepted : p.accepted w = true) : w.Step tracked (w.store p) := by
  cases p with
  | state version st' =>
      have hversion : w.auth.version = version := beq_iff_eq.mp haccepted
      refine ⟨storeState_valid hw h hversion, storeState_later hw h hversion, ?_⟩
      obtain ⟨st, effect, hread, htransition, heffect⟩ := h
      obtain rfl := hread.2 hversion
      refine .stored effect htransition (fun ht hrenew t htoken => ?_) rfl rfl
      subst hrenew
      exact (heffect.2 ht t htoken).2 hversion
  | pull ns secret =>
      have harmed : w.Armed ns secret := h
      refine ⟨storePull_valid hw harmed haccepted, storePull_later harmed haccepted, ?_⟩
      obtain ⟨p, hp, hversion⟩ := (Option.any_eq_true _ _).mp haccepted
      obtain ⟨g, -, hg⟩ := harmed.stored
      refine .written ns g (harmed.last p hp (beq_iff_eq.mp hversion) g hg) rfl rfl ?_
      show (ns, secret.generation.getD "") :: w.writes = _
      rw [hg]
      rfl

theorem receive_step (hw : w.Valid tracked) (h : p.Proper tracked w) :
    w.Step tracked (w.receive p) := by
  unfold World.receive
  split
  next haccepted => exact store_step hw h haccepted
  next => exact .refl hw

/-- What is known is about the Secrets and the states that were stored. -/
theorem later_of_same (hauth : w'.auth = w.auth) (hpulls : w'.pulls = w.pulls)
    (hrevision : w'.revision = w.revision) (hhistory : w'.history = w.history) : w.Later w' := by
  obtain ⟨auth, pulls, revision, flight, history, writes, presented⟩ := w
  obtain ⟨auth', pulls', revision', flight', history', writes', presented'⟩ := w'
  obtain rfl : auth' = auth := hauth
  obtain rfl : pulls' = pulls := hpulls
  obtain rfl : revision' = revision := hrevision
  obtain rfl : history' = history := hhistory
  intro f hf
  cases f with
  | armed ns secret => exact ⟨hf.place, hf.version, hf.stored, hf.data, hf.current, hf.last⟩
  | _ => exact hf

theorem later_flight (flight : List Put) : w.Later { w with flight := flight } :=
  later_of_same rfl rfl rfl rfl

theorem valid_flight {flight : List Put} (hw : w.Valid tracked)
    (h : ∀ p ∈ flight, p.Proper tracked w) : ({ w with flight := flight } : World).Valid tracked :=
  ⟨hw.version, hw.versions, hw.stored, fun p hp => (h p hp).later (later_flight flight), hw.holds,
    hw.superseded, hw.last⟩

theorem arrive_step (hw : w.Valid tracked) (n : Nat) : w.Step tracked (w.arrive n) := by
  unfold World.arrive
  split
  next p hp =>
    have hproper := hw.flight p (List.mem_of_getElem? hp)
    have hwithout : ({ w with flight := w.flight.eraseIdx n } : World).Valid tracked :=
      valid_flight hw fun q hq => hw.flight q (List.mem_of_mem_eraseIdx hq)
    have hstep := receive_step hwithout (hproper.later (later_flight (w.flight.eraseIdx n)))
    refine ⟨hstep.valid, (later_flight _).trans hstep.later, ?_⟩
    cases hstep.change with
    | none hauth hhistory hwrites => exact .none hauth hhistory hwrites
    | stored effect htransition htoken hhistory hwrites =>
        exact .stored effect htransition htoken hhistory hwrites
    | written ns g hlast hauth hhistory hwrites => exact .written ns g hlast hauth hhistory hwrites
  next => exact .refl hw

theorem present_step (hw : w.Valid tracked) (current : Credentials) :
    w.Step tracked { w with presented := current :: w.presented } := by
  have hlater : w.Later { w with presented := current :: w.presented } :=
    later_of_same rfl rfl rfl rfl
  exact ⟨⟨hw.version, hw.versions, hw.stored, fun p hp => (hw.flight p hp).later hlater, hw.holds,
    hw.superseded, hw.last⟩, hlater, .none rfl rfl rfl⟩

theorem put_step {α : Type} (e : Stamp) (result : World → α) (hw : w.Valid tracked)
    (h : p.Proper tracked w) : w.Step tracked (e.put w p result).2 := by
  unfold Stamp.put
  split
  · split
    next haccepted => exact store_step hw h haccepted
    next => exact .refl hw
  · exact .refl hw
  · exact receive_step hw h
  · refine ⟨valid_flight hw fun q hq => ?_, later_flight _, .none rfl rfl rfl⟩
    rcases List.mem_cons.mp hq with rfl | hold
    · exact h
    · exact hw.flight q hold

end

end Registry
