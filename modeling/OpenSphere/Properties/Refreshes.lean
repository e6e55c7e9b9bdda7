import OpenSphere.Properties.Propagation

/-!
# Refresh tokens are presented once

`tick` stores that it is about to refresh before it does, and a write of the state is accepted
once, so there is one call of `provider.refresh` for each such mark at most (`setting_keeps`).
After a mark the state is never one that `tick` would refresh with the same token: it is still
marked, or it is to be authorized again, or an authorization is awaited.

One write breaks this.  Where `beginOAuth` cannot start an authorization and there are
credentials, it stores that they are degraded, also over a state that was to be authorized again
because the refresh token may be used up.
-/

open System (Along Program)

namespace Registry

variable {S : Service} {t : String}
variable {effect : Effect} {st st' : State} {α : Type}

/-- The state says that its refresh token is about to be presented. -/
def State.marks (t : String) (st : State) : Bool :=
  st.work.any (fun work => decide (work.kind = .refresh)) && decide (st.refreshToken = some t)

def World.Started (w : World) (t : String) : Prop := ∃ st ∈ w.history, st.marks t = true

instance (w : World) (t : String) : Decidable (w.Started t) :=
  inferInstanceAs (Decidable (∃ st ∈ w.history, st.marks t = true))

def World.presentations (w : World) (t : String) : Nat :=
  w.presented.countP fun c => decide (c.refreshToken = some t)

/-! ## Marks and presentations -/

/-- A mark grants one call of `provider.refresh`. -/
def account (t : String) : System.Account Request Request.Result World where
  uses
    | .refresh c => (decide (c.refreshToken = some t)).toNat
    | _ => 0
  grants q _ :=
    match q with
    | .putState _ st => (st.marks t).toNat
    | _ => 0
  used w := w.presentations t
  granted w := w.history.countP (State.marks t)

/-- A program that does not call `provider.refresh`. -/
abbrev Calm (t : String) {α : Type} (p : Routine α) : Prop :=
  p.Keeps (fun q => (account t).uses q = 0) fun _ => True

theorem calm_await (q : Request) (h : (account t).uses q = 0) : Calm t (await q) :=
  Program.keeps_await h

theorem calm_now : Calm t now := calm_await .clock rfl

theorem calm_newId : Calm t newId := calm_await .newId rfl

theorem calm_lift (x : Except Failure α) : Calm t (Program.lift x) :=
  Program.keeps_lift fun _ _ => True.intro

theorem calm_read : Calm t (read S) :=
  (calm_await .getState rfl).seq fun _ => (calm_lift _).seq fun _ => True.intro

theorem calm_write (snapshot : Snapshot) (st : State) : Calm t (write S snapshot st) :=
  (calm_await (.putState snapshot.version st) rfl).seq fun _ => (calm_lift _).seq fun _ => True.intro

theorem calm_result (st : State) (outcome code : String) : Calm t (result S st outcome code) := by
  unfold result
  split
  · exact calm_await (.recordResult (st.event outcome code)) rfl
  · trivial

theorem calm_verifyImages (c : Credentials) (images : List String) :
    Calm t (verifyImages c images) := by
  unfold verifyImages
  split
  · trivial
  · exact calm_await (.verifyImages c images) rfl

theorem calm_assertFence (fence : Snapshot) : Calm t (assertFence fence) := by
  refine (calm_await .getState rfl).seq fun current => ?_
  split <;> trivial

theorem calm_forEach {f : String → Routine Unit} (hf : ∀ x, Calm t (f x)) (l : List String) :
    Calm t (forEach f l) := by
  induction l with
  | nil => trivial
  | cons x l ih => exact (hf x).seq fun _ => ih

theorem calm_propagate (generation expected : String) (fence : Snapshot) (ns : String) :
    Calm t (propagate generation expected fence ns) := by
  refine (calm_await (.getPull ns) rfl).seq fun old => ?_
  split
  · trivial
  split
  · trivial
  split
  · trivial
  refine (calm_assertFence fence).seq fun _ => ?_
  refine (calm_await (.putPull ns _) rfl).seq fun value => ?_
  split <;> trivial

theorem calm_verify (generation expected ns : String) : Calm t (verify generation expected ns) := by
  refine (calm_await (.getPull ns) rfl).seq fun value => ?_
  split <;> trivial

theorem calm_synchronize (credentials : Option Credentials) (generation : String)
    (fence : Snapshot) : Calm t (synchronize credentials generation fence) := by
  refine (calm_forEach (calm_propagate _ _ fence) _).seq fun _ => ?_
  refine (calm_forEach (calm_verify _ _) _).seq fun _ => ?_
  exact (calm_assertFence fence).seq fun _ => True.intro

theorem calm_available : Calm t (available S) := by
  refine calm_read.seq fun snapshot => ?_
  split <;> trivial

theorem calm_beginOAuth (operation : Operation) : Calm t (beginOAuth S operation) := by
  unfold beginOAuth
  split
  · trivial
  refine calm_available.seq fun snapshot => ?_
  refine calm_newId.seq fun id => ?_
  refine calm_now.seq fun startedAt => ?_
  refine (calm_write snapshot _).seq fun marked => ?_
  refine Program.Keeps.tryCatch ?_ fun e => ?_
  · refine Program.Keeps.seq ?_ fun _ => True.intro
    refine (calm_await (.assertAuthority operation) rfl).seq fun _ => ?_
    exact (calm_await (.start S.clientId) rfl).seq fun flow => calm_write marked _
  · exact (calm_result ..).seq fun _ => (calm_write marked _).seq fun _ => True.intro

theorem calm_replace (operation : Operation) (username token : String) :
    Calm t (replace S operation username token) := by
  refine calm_available.seq fun snapshot => ?_
  refine (calm_await (.pat username token) rfl).seq fun checked => ?_
  refine (calm_verifyImages ..).seq fun _ => (calm_lift _).seq fun _ => ?_
  refine (calm_await (.assertAuthority operation) rfl).seq fun _ => ?_
  exact calm_newId.seq fun id =>
    (calm_write ..).seq fun _ => True.intro

theorem calm_remove (operation : Operation) : Calm t (remove S operation) := by
  refine calm_available.seq fun snapshot => ?_
  refine (calm_await (.assertAuthority operation) rfl).seq fun _ => ?_
  exact calm_newId.seq fun id =>
    (calm_write ..).seq fun _ => True.intro

theorem calm_takeImages (snapshot : Snapshot) : Calm t (takeImages S snapshot) := by
  unfold takeImages
  split
  · refine (calm_await .installationImages rfl).seq fun images => ?_
    refine (calm_lift _).seq fun _ => ?_
    split
    · trivial
    · exact calm_write ..
  · trivial

theorem calm_pollAuthorization (snapshot : Snapshot) (before : State) (pending : Pending) :
    Calm t (pollAuthorization S snapshot before pending) := by
  refine (calm_await (.assertAuthority pending.operation) rfl).seq fun _ => ?_
  refine (calm_await (.poll pending.flow) rfl).seq fun response => ?_
  split
  · exact (calm_write ..).seq fun _ => True.intro
  · refine (calm_lift _).seq fun _ => (calm_verifyImages ..).seq fun _ => ?_
    refine (calm_await (.assertAuthority pending.operation) rfl).seq fun _ => ?_
    exact calm_newId.seq fun id =>
      (calm_write ..).seq fun _ => True.intro

theorem calm_propagateCredentials (snapshot : Snapshot) (before : State) :
    Calm t (propagateCredentials S snapshot before) := by
  have hcheck : Calm t (checkStored S before) := by
    unfold checkStored
    split
    · refine (calm_await (.inspect _ _ _) rfl).seq fun _ => ?_
      refine calm_now.seq fun time => ?_
      split
      · trivial
      · exact calm_verifyImages ..
    · trivial
  refine hcheck.seq fun _ => (calm_synchronize ..).seq fun namespaces => ?_
  refine (calm_result ..).seq fun _ => ?_
  exact calm_now.seq fun time =>
    (calm_write ..).seq fun _ => True.intro

theorem calm_recover (snapshot : Snapshot) (before : State) (kind : WorkKind) (e : Failure) :
    Calm t (recover S snapshot before kind e) := by
  unfold recover
  split
  · trivial
  · refine (calm_result ..).seq fun _ => ?_
    exact calm_now.seq fun time =>
      (calm_write ..).seq fun _ => True.intro

/-- A program never calls `provider.refresh` with a token more often than it was granted to. -/
abbrev Spends (t : String) {α : Type} (n : Nat) (p : Routine α) : Prop :=
  p.Spends (account t).uses (account t).grants n

theorem write_spends {f : Snapshot → Routine α} (snapshot : Snapshot)
    (hf : ∀ marked, Spends t (st.marks t).toNat (f marked)) :
    Spends t 0 (write S snapshot st >>= f) := by
  refine ⟨Nat.zero_le 0, fun secret => ?_, fun e => True.intro⟩
  have hgranted : 0 - (account t).uses (.putState snapshot.version st) +
      (account t).grants (.putState snapshot.version st) secret = (st.marks t).toNat :=
    Nat.zero_add _
  rw [hgranted]
  have hparse : Calm t (Program.lift (parseRegistryState S.dateParse secret.state) >>=
      fun state => pure ⟨secret.version, state⟩ : Routine Snapshot) :=
    (calm_lift _).seq fun _ => True.intro
  exact hparse.spends fun x _ => hf x

theorem refreshCredentials_spends (snapshot : Snapshot) (before : State) (work : Work)
    (current : Credentials) :
    Spends t (decide (current.refreshToken = some t)).toNat
      (refreshCredentials S snapshot before work current) := by
  refine (calm_result ..).spends fun _ _ => ?_
  refine ⟨Nat.le_refl _, fun c => ?_, fun e => True.intro⟩
  refine (calm_lift _).spends fun _ _ => calm_newId.spends fun id _ => ?_
  exact (calm_write ..).spends fun _ _ => True.intro

theorem takeOn_spends {snapshot : Snapshot} {job : Job}
    (hjob : ∀ c, job = .refresh c → snapshot.state.credentials = some c) :
    Spends t 0 (takeOn S snapshot job) := by
  refine calm_newId.spends fun id _ => ?_
  refine calm_now.spends fun startedAt _ => ?_
  refine write_spends snapshot fun marked => ?_
  refine Program.Spends.tryCatch ?_ fun e => (calm_recover ..).spends_self
  cases job with
  | poll pending => exact (calm_pollAuthorization ..).spends_self
  | propagate => exact (calm_propagateCredentials ..).spends_self
  | refresh c =>
      refine (refreshCredentials_spends marked _ _ c).mono (Nat.le_of_eq ?_)
      simp [State.marks, State.refreshToken, Job.kind, hjob c rfl]

theorem tick_spends : Spends t 0 (tick S) := by
  refine calm_read.spends fun first _ => (calm_takeImages first).spends fun snapshot _ => ?_
  split
  · refine calm_now.spends fun time _ => ?_
    split
    · trivial
    · exact (calm_result ..).spends fun _ _ => (calm_write ..).spends fun _ _ => True.intro
  split
  · trivial
  refine calm_now.spends fun retryTime _ => ?_
  split
  · trivial
  refine calm_now.spends fun refreshTime _ => ?_
  refine calm_now.spends fun checkTime _ => ?_
  refine calm_now.spends fun pollTime _ => ?_
  split
  · trivial
  split
  · trivial
  split
  · split
    · trivial
    · exact takeOn_spends fun c h => (nomatch h)
  next c _ hcredentials =>
    split
    · refine takeOn_spends fun c' h => ?_
      cases h
      exact hcredentials
    · exact takeOn_spends fun c h => (nomatch h)
  · exact takeOn_spends fun c h => (nomatch h)

theorem program_spends (c : Call) : Spends t 0 (c.program S) := by
  cases c with
  | beginOAuth operation => exact (calm_beginOAuth operation).spends_self
  | replace operation username token => exact (calm_replace operation username token).spends_self
  | remove operation => exact (calm_remove operation).spends_self
  | tick => exact tick_spends

theorem store_account (w : World) (p : Put) :
    (account t).used (w.store p) = (account t).used w ∧
      (account t).granted w ≤ (account t).granted (w.store p) := by
  cases p with
  | state version st => exact ⟨rfl, (List.sublist_cons_self ..).countP_le⟩
  | pull ns secret => exact ⟨rfl, Nat.le_refl _⟩

theorem receive_account (w : World) (p : Put) :
    (account t).used (w.receive p) = (account t).used w ∧
      (account t).granted w ≤ (account t).granted (w.receive p) := by
  unfold World.receive
  split
  · exact store_account w p
  · exact ⟨rfl, Nat.le_refl _⟩

theorem put_account (e : Stamp) (w : World) (p : Put) (result : World → α) :
    (account t).used (e.put w p result).2 = (account t).used w ∧
      (account t).granted w ≤ (account t).granted (e.put w p result).2 := by
  unfold Stamp.put
  split
  · split
    · exact store_account w p
    · exact ⟨rfl, Nat.le_refl _⟩
  · exact ⟨rfl, Nat.le_refl _⟩
  · exact receive_account w p
  · exact ⟨rfl, Nat.le_refl _⟩

theorem answer_account (e : Stamp) (q : Request) (w : World) :
    (account t).used (answer S.toPlatform e q w).2 ≤ (account t).used w + (account t).uses q ∧
      (account t).granted w ≤ (account t).granted (answer S.toPlatform e q w).2 := by
  cases q with
  | putState version st =>
      obtain ⟨hused, hgranted⟩ := put_account (t := t) e w (.state version st) World.auth
      exact ⟨Nat.le_of_eq hused, hgranted⟩
  | putPull ns secret =>
      simp only [answer]
      split
      · exact ⟨Nat.le_refl _, Nat.le_refl _⟩
      · obtain ⟨hused, hgranted⟩ := put_account (t := t) e w (.pull ns secret) fun w => w.pulls ns
        exact ⟨Nat.le_of_eq hused, hgranted⟩
  | refresh c =>
      refine ⟨Nat.le_of_eq ?_, Nat.le_refl _⟩
      simp only [account, World.presentations, answer, List.countP_cons]
      cases decide (c.refreshToken = some t) <;> rfl
  | _ => exact ⟨Nat.le_refl _, Nat.le_refl _⟩

theorem answer_grants (e : Stamp) (q : Request) (w : World) (x : q.Result)
    (h : (answer S.toPlatform e q w).1 = .ok x) :
    (account t).granted w + (account t).grants q x ≤
      (account t).granted (answer S.toPlatform e q w).2 := by
  cases q with
  | putState version st =>
      simp only [answer, Stamp.put] at h ⊢
      split at h
      · split at h
        next haccepted =>
          rw [if_pos haccepted]
          simp only [account, World.store, List.countP_cons]
          cases st.marks t <;> simp
        next => cases h
      all_goals cases h
  | _ => exact (answer_account (S := S) e _ w).2

theorem setting_keeps (S : Service) (t : String) : (setting S).Keeps (account t) where
  program := program_spends
  used e q w := (answer_account e q w).1
  granted e q w := (answer_account e q w).2
  grants := answer_grants
  change n w := by
    show _ ≤ _ ∧ _ ≤ _
    simp only [setting, World.arrive]
    split
    next p _ =>
      obtain ⟨hused, hgranted⟩ :=
        receive_account (t := t) { w with flight := w.flight.eraseIdx n } p
      exact ⟨Nat.le_of_eq hused, hgranted⟩
    next => exact ⟨Nat.le_refl _, Nat.le_refl _⟩

/-! ## Marks -/

/-- `tick` does not refresh the credentials of the state. -/
def State.Guarded (st : State) : Prop :=
  st.phase = .reauthorizationRequired ∨ st.pending.isSome = true ∨ st.doing .refresh

theorem doing_of_marks (h : st.marks t = true) :
    st.doing .refresh ∧ st.refreshToken = some t := by
  obtain ⟨hwork, htoken⟩ := Bool.and_eq_true_iff.mp h
  obtain ⟨work, hsome, hkind⟩ := (Option.any_eq_true _ _).mp hwork
  exact ⟨⟨work, hsome, of_decide_eq_true hkind⟩, of_decide_eq_true htoken⟩

theorem Transition.unguarded (h : Transition effect st st')
    (hmarks : st'.marks t = true) : ¬st.Guarded ∧ st.refreshToken = some t := by
  obtain ⟨⟨work, hwork, hkind⟩, htoken⟩ := doing_of_marks hmarks
  cases h with
  | takenOn work' hnone hdue hripe =>
      cases hwork
      refine ⟨?_, htoken⟩
      rw [hkind] at hripe
      have hpending : st.pending = none := hripe
      rintro (hphase | hsome | ⟨work'', hsome, -⟩)
      · exact hdue.phase hphase
      · rw [hpending] at hsome
        cases hsome
      · rw [hnone] at hsome
        cases hsome
  | begin operation id startedAt hidle =>
      cases hwork
      cases hkind
  | images images hidle | replaced c id operation hidle | removed id operation hidle =>
      cases hidle.work.symm.trans hwork
  | _ => cases hwork

/-- A state that is guarded stays so while it has its credentials, except where `beginOAuth` fails
to start an authorization. -/
theorem Transition.guarded (h : Transition effect st st')
    (heffect : effect ≠ .renew) (hst : st.Guarded) :
    st'.Guarded ∨ st.phase = .reauthorizationRequired ∧ st' = st.startFailed := by
  -- a state without work and without an authorization is guarded by its phase
  have hphase : st.pending = none → (∀ work, st.work = some work → work.kind ≠ .refresh) →
      st.phase = .reauthorizationRequired := by
    intro hpending hwork
    rcases hst with hphase | hsome | ⟨work, hsome, hkind⟩
    · exact hphase
    · rw [hpending] at hsome
      cases hsome
    · exact absurd hkind (hwork work hsome)
  have hidle : st.Idle → st.phase = .reauthorizationRequired := fun h =>
    hphase h.pending fun work hwork => by cases h.work.symm.trans hwork
  have hdoing : ∀ kind, kind ≠ .refresh → st.doing kind → ∀ work, st.work = some work →
      work.kind ≠ .refresh := by
    rintro kind hne ⟨work', hwork', hkind'⟩ work hwork hkind
    obtain rfl := Option.some.inj (hwork.symm.trans hwork')
    exact hne (hkind'.symm.trans hkind)
  have hpropagating : st.pending = none → st.doing .propagate →
      st.phase = .reauthorizationRequired := fun hpending h =>
    hphase hpending (hdoing .propagate (by decide) h)
  cases h with
  | images images h =>
      left
      left
      simp only [State.withImages, hidle h, if_true]
  | begin operation id startedAt h => exact .inl (.inl (hidle h))
  | started | polled => exact .inl (.inr (.inl rfl))
  | startFailed h hpending =>
      exact .inr ⟨hphase hpending (hdoing .deviceStart (by decide) h), rfl⟩
  | interrupted => exact .inl (.inl rfl)
  | takenOn work hnone hdue hripe =>
      left
      rcases hst with hreauthorize | hpending | ⟨work', hwork', -⟩
      · exact absurd hreauthorize hdue.phase
      · exact .inr (.inl hpending)
      · cases hnone.symm.trans hwork'
  | replaced | removed | authorized | refreshed => exact absurd rfl heffect
  | propagated before verifiedAt namespaces hdue hpending hdoing =>
      exact absurd (hpropagating hpending hdoing) hdue.phase
  | failed before reauthorize code retryAt hfailed =>
      cases reauthorize with
      | true => exact .inl (.inl rfl)
      | false =>
          obtain ⟨hdue, hpending, hdoing, -⟩ := hfailed rfl
          exact absurd (hpropagating hpending hdoing) hdue.phase

/-- Every token was marked at most once, and one that was is not refreshed again. -/
structure World.Marked (w : World) : Prop where
  once : ∀ t, w.history.countP (State.marks t) ≤ 1
  guarded : ∀ t, w.Started t → w.auth.state.refreshToken = some t → w.auth.state.Guarded

/-- A start of an authorization that failed makes the credentials of a state refreshable again whose
refresh was already started. -/
def World.Revived (w w' : World) : Prop :=
  w.auth.state.phase = .reauthorizationRequired ∧ w'.auth.state = w.auth.state.startFailed ∧
    ∃ t ∈ w.auth.state.refreshToken, w.Started t

theorem mem_tokens_of_started {w : World} (h : w.Started t) : t ∈ w.tokens := by
  obtain ⟨st, hst, hmarks⟩ := h
  exact List.mem_filterMap.mpr ⟨st, hst, (doing_of_marks hmarks).2⟩

theorem refreshToken_eq (h : Transition effect st st')
    (heffect : effect ≠ .renew) : st'.refreshToken = st.refreshToken := by
  cases effect with
  | keep => rw [State.refreshToken, State.refreshToken, h.kept.2.1]
  | complete => rw [State.refreshToken, State.refreshToken, h.completed.2]
  | renew => exact absurd rfl heffect

theorem World.Change.marked {w w' : World} (h : World.Change True w w') (hw : w.Marked)
    (hrevived : ¬w.Revived w') : w'.Marked := by
  have hsame : w'.auth = w.auth → w'.history = w.history → w'.Marked := by
    intro hauth hhistory
    refine ⟨fun t => hhistory ▸ hw.once t, fun t hstarted htoken => ?_⟩
    rw [World.Started, hhistory] at hstarted
    rw [hauth] at htoken ⊢
    exact hw.guarded t hstarted htoken
  cases h with
  | none hauth hhistory => exact hsame hauth hhistory
  | written ns g hlast hauth hhistory => exact hsame hauth hhistory
  | stored effect htransition hunseen hhistory =>
      refine ⟨fun t => ?_, fun t hstarted htoken => ?_⟩
      · rw [hhistory, List.countP_cons]
        split
        next hmarks =>
          obtain ⟨hunguarded, htoken⟩ := htransition.unguarded hmarks
          have hzero : w.history.countP (State.marks t) = 0 := by
            refine List.countP_eq_zero.mpr fun st hst hmarks => ?_
            exact hunguarded (hw.guarded t ⟨st, hst, hmarks⟩ htoken)
          rw [hzero]
        next => exact hw.once t
      · obtain ⟨st, hst, hmarks⟩ := hstarted
        rw [hhistory] at hst
        rcases List.mem_cons.mp hst with rfl | hold
        · exact .inr (.inr (doing_of_marks hmarks).1)
        · have hstarted : w.Started t := ⟨st, hold, hmarks⟩
          by_cases heffect : effect = .renew
          · exact absurd (mem_tokens_of_started hstarted) (hunseen True.intro heffect t htoken)
          · have htoken' : w.auth.state.refreshToken = some t :=
              (refreshToken_eq htransition heffect).symm.trans htoken
            rcases htransition.guarded heffect (hw.guarded t hstarted htoken') with
              hguarded | ⟨hphase, hfailed⟩
            · exact hguarded
            · exact absurd ⟨hphase, hfailed, t, htoken', hstarted⟩ hrevived

/-! ## Runs -/

/-- The next request of a call is for new credentials. -/
def Calls.authorizes (s : Calls) (i : Nat) : Bool :=
  match s.tasks[i]? with
  | some ⟨_, .ask (.poll _) _⟩ => true
  | some ⟨_, .ask (.refresh _) _⟩ => true
  | _ => false

/-- The provider issues no refresh token that was ever stored. -/
def Move.Issues (m : Move) (s : Calls) : Prop :=
  match m with
  | .step i e => s.authorizes i = true → ∀ t ∈ e.replies.issued, t ∉ s.world.tokens
  | _ => True

instance Move.Issues.decidable : (m : Move) → (s : Calls) → Decidable (Move.Issues m s)
  | .step i e, s => inferInstanceAs
      (Decidable (s.authorizes i = true → ∀ t ∈ e.replies.issued, t ∉ s.world.tokens))
  | .start _, _ => .isTrue True.intro
  | .crash _, _ => .isTrue True.intro
  | .outside _, _ => .isTrue True.intro

instance (w w' : World) : Decidable (w.Revived w') :=
  inferInstanceAs (Decidable (_ ∧ _ ∧ ∃ t ∈ w.auth.state.refreshToken, w.Started t))

/-- A move revives credentials whose refresh was already started. -/
def Move.Revives (S : Service) (m : Move) (s : Calls) : Prop :=
  s.world.Revived (System.Pool.perform (setting S) m s).world

/-- Ids are new, and so are the refresh tokens of the provider. -/
def Move.Regular (m : Move) (s : Calls) : Prop := Move.Fresh m s ∧ Move.Issues m s

instance (m : Move) (s : Calls) : Decidable (Move.Regular m s) :=
  inferInstanceAs (Decidable (_ ∧ _))

instance (m : Move) (s : Calls) : Decidable (Move.Revives S m s) :=
  inferInstanceAs (Decidable (World.Revived ..))

theorem allowed_of_regular {m : Move} {s : Calls} (h : Move.Regular m s) :
    m.Allowed (discipline True) s := by
  cases m with
  | step i e =>
      intro c q next hi
      cases q with
      | newId => exact h.1 (by rw [Calls.draws, hi])
      | poll flow | refresh current => exact fun _ t ht => h.2 (by rw [Calls.authorizes, hi]) t ht
      | _ => trivial
  | _ => trivial

theorem handoff_marked {dateParse : DateParse} {credentials : Option Credentials}
    {images : List String} {generation : String} {state : State}
    (h : initialRegistryState dateParse credentials images generation = .ok state)
    (pulls : String → Option PullSecret) : (World.handoff state pulls).Marked := by
  obtain rfl := initialRegistryState_eq_ok h
  refine ⟨fun t => Nat.zero_le 1, fun t ⟨st, hst, hmarks⟩ => ?_⟩
  obtain rfl := List.mem_singleton.mp hst
  cases hmarks

theorem run_marked {s : Calls} {ms : List Move} (h : s.Sound (setting S) (discipline True))
    (hmarked : s.world.Marked)
    (hms : Along (System.Pool.perform (setting S))
      (fun m s => Move.Regular m s ∧ ¬Move.Revives S m s) ms s) :
    (s.after S ms).Sound (setting S) (discipline True) ∧ (s.after S ms).world.Marked := by
  refine Along.invariant (I := fun t : Calls => t.Sound (setting S) (discipline True) ∧
    t.world.Marked) (fun m t ht hm => ?_) hms ⟨h, hmarked⟩
  obtain ⟨hsound, hmarked⟩ := ht
  obtain ⟨hsound', hstep⟩ := hsound.perform (setting_fits S True) (allowed_of_regular hm.1)
  refine ⟨hsound', ?_⟩
  rcases hstep with hsame | hstep
  · rw [hsame]
    exact hmarked
  · exact hstep.change.marked hmarked hm.2

/-- Refresh tokens are presented once.  In every run of any number of replicas, with crashes, lost
answers and errors of the provider, in which no failed start of an authorization revives credentials
whose refresh was already started, `provider.refresh` is called at most once with each token. -/
theorem refresh_token_once (S : Service) {credentials : Option Credentials}
    {images : List String} {generation : String} {state : State}
    (hstate : initialRegistryState S.dateParse credentials images generation = .ok state)
    (pulls : String → Option PullSecret) {ms : List Move}
    (hms : Along (System.Pool.perform (setting S))
      (fun m s => Move.Regular m s ∧ ¬Move.Revives S m s) ms (Calls.initial state pulls))
    (t : String) : ((Calls.initial state pulls).after S ms).world.presentations t ≤ 1 := by
  have hstart := initial_sound (S := S) True (observation_of_initial hstate) pulls
  obtain ⟨-, hmarked⟩ := run_marked hstart (handoff_marked hstate pulls) hms
  have hcovered : (Calls.initial state pulls).Covered (account t) :=
    ⟨[], rfl, fun _ hx => (nomatch hx), Nat.zero_le _⟩
  exact (hcovered.run (setting_keeps S t) ms).used_le.trans (hmarked.once t)

namespace Demo

/-- A service whose credentials expire at once and whose refresh tokens do not. -/
def device : Service := { service with
  dateParse := fun t => if t = "2027-01-01T00:00:00.000Z" then some 1798761600000 else some 0 }

def credentials : Credentials where
  username := "opensphere"
  token := "gho_0123456789abcdef"
  lifecycle := ⟨"1.0", "github-device", some "OpenSphereClientId", "42", ["read:packages"],
    some "1970-01-01T00:00:00.000Z", some "ghr_0123456789abcdef", some "2027-01-01T00:00:00.000Z",
    none⟩

def authorized : State :=
  ⟨"g-0", some credentials, [], .pending, none, none, none, none, none, none, none⟩

def outage (id : String) (clock : Int) : Stamp := { stamp id with
  clock := clock
  replies := ⟨.error ⟨"GitHub registry authentication: ProviderUnavailable",
    some "ProviderUnavailable"⟩, .error (.plain "unavailable"), clock⟩ }

/-- A refresh that fails, and a call of `tick` after it. -/
def refreshes : List Move :=
  .start .tick :: List.replicate 13 (.step 0 (outage "work-0" 0)) ++
    .start .tick :: List.replicate 13 (.step 1 (outage "work-1" 100000))

/-- A refresh that fails, an authorization that cannot be started, and a call of `tick`. -/
def revival : List Move :=
  .start .tick :: List.replicate 13 (.step 0 (outage "work-0" 0)) ++
    .start (.beginOAuth operation) :: List.replicate 8 (.step 1 (outage "work-1" 0)) ++
    .start .tick :: List.replicate 10 (.step 2 (outage "work-2" 100000))

end Demo

/-- After a refresh whose outcome is not known the token is left alone. -/
theorem failed_refresh_left_alone :
    ((Calls.initial Demo.authorized Demo.empty).after Demo.device
      Demo.refreshes).world.auth.state.phase = .reauthorizationRequired ∧
    ((Calls.initial Demo.authorized Demo.empty).after Demo.device
      Demo.refreshes).world.presentations "ghr_0123456789abcdef" ≤ 1 := by
  have hstate : initialRegistryState Demo.device.dateParse (some Demo.credentials) [] "g-0" =
      .ok Demo.authorized := by decide
  refine ⟨by decide, refresh_token_once Demo.device hstate Demo.empty ?_ _⟩
  decide

/-- An authorization that cannot be started makes `tick` present a token again. -/
theorem token_presented_twice :
    initialRegistryState Demo.device.dateParse (some Demo.credentials) [] "g-0" =
      .ok Demo.authorized ∧
    Along (System.Pool.perform (setting Demo.device)) Move.Regular Demo.revival
      (Calls.initial Demo.authorized Demo.empty) ∧
    ((Calls.initial Demo.authorized Demo.empty).after Demo.device
      Demo.revival).world.presentations "ghr_0123456789abcdef" = 2 :=
  ⟨by decide, by decide, by decide⟩

end Registry
