import OpenSphere.Registry.Steps

/-!
# The replicas keep to the rules

Each function of the broker keeps to one discipline: its writes are proper, given what it has
read.  So every state that is stored comes by a `Transition` from the one before it, whatever the
replicas do between the requests of each other (`setting_fits`).
-/

open System (Program Yields Discipline yields_pure yields_throw yields_lift yields_await)

namespace Registry

variable {fence snapshot : Snapshot} {before st' : State} {work : Work} {ns : String} {α : Type}

/-- What is asked of the ids and the provider: an id is new, and where the provider is tracked
it issues no refresh token that was ever stored. -/
def Allowed (tracked : Prop) (e : Stamp) (q : Request) (w : World) : Prop :=
  match q with
  | .newId => ¬w.Known e.id
  | .poll _ => tracked → ∀ t, e.replies.issued = some t → t ∉ w.tokens
  | .refresh _ => tracked → ∀ t, e.replies.issued = some t → t ∉ w.tokens
  | _ => True

def discipline (tracked : Prop) : Discipline Stamp Request World where
  valid := World.Valid tracked
  rely := World.Later
  guarantee := World.Step tracked
  allowed := Allowed tracked

theorem discipline_closed (tracked : Prop) : (discipline tracked).Closed where
  refl := World.Later.refl
  trans := World.Later.trans
  share h := h.later

section

variable {S : Service} {tracked : Prop} {w : World}

/-- A program of the broker keeps to the rules, and what it returns satisfies `post`. -/
abbrev Does (S : Service) (tracked : Prop) {α : Type} (post : α → World → Prop) (p : Routine α)
    (w : World) : Prop :=
  Yields (answer S.toPlatform) (discipline tracked) post p w

/-- Nothing is known of what a program returns. -/
abbrev Runs (S : Service) (tracked : Prop) {α : Type} (p : Routine α) (w : World) : Prop :=
  Does S tracked (fun _ _ => True) p w

theorem Does.bind {β : Type} {mid : α → World → Prop} {post : β → World → Prop} {p : Routine α}
    {f : α → Routine β} (h : Does S tracked mid p w)
    (hf : ∀ x w', w.Later w' → mid x w' → Does S tracked post (f x) w') :
    Does S tracked post (p >>= f) w :=
  Yields.bind (discipline_closed tracked) h hf

theorem Does.tryCatch {post : α → World → Prop} {p : Routine α}
    {f : Failure → Routine α} (h : Does S tracked post p w)
    (hf : ∀ e w', w.Later w' → Does S tracked post (f e) w') :
    Does S tracked post (p.tryCatch f) w :=
  Yields.tryCatch (discipline_closed tracked) h hf

/-! ## Requests -/

theorem does_quiet (q : Request) {post : q.Result → World → Prop}
    (hsame : ∀ e w', (answer S.toPlatform e q w').2 = w')
    (hpost : ∀ e w', w'.Valid tracked → w.Later w' → Allowed tracked e q w' →
      ∀ x, (answer S.toPlatform e q w').1 = .ok x → post x w') :
    Does S tracked post (await q) w := by
  refine yields_await fun e w' hvalid hlater hallowed => ?_
  rw [hsame e w']
  exact ⟨hvalid, .refl hvalid, hpost e w' hvalid hlater hallowed⟩

/-- A request that changes nothing, and whose answer is not looked at. -/
theorem runs_quiet (q : Request) (hsame : ∀ e w', (answer S.toPlatform e q w').2 = w') :
    Runs S tracked (await q) w :=
  does_quiet q hsame fun _ _ _ _ _ _ _ => True.intro

theorem Stamp.get_eq_ok {e : Stamp} {x y : α} (h : e.get x = .ok y) : x = y := by
  unfold Stamp.get at h
  split at h
  · exact Except.ok.inj h
  · cases h

theorem does_getState :
    Does S tracked (fun s w' => w'.Valid tracked ∧ w'.auth = s) (await .getState) w :=
  does_quiet .getState (fun _ _ => rfl) fun _ _ hvalid _ _ _ hs => ⟨hvalid, Stamp.get_eq_ok hs⟩

theorem does_getPull (ns : String) :
    Does S tracked (fun o w' => w'.pulls ns = o ∧ ∀ p, o = some p → p.version ≤ w'.revision)
      (await (.getPull ns)) w := by
  refine does_quiet (.getPull ns) (fun _ _ => rfl) fun e w' hvalid _ _ o ho => ?_
  obtain rfl := Stamp.get_eq_ok ho
  exact ⟨rfl, fun p hp => hvalid.versions ns p hp⟩

theorem does_newId : Does S tracked (fun id w' => ¬w'.Known id) newId w := by
  refine does_quiet .newId (fun _ _ => rfl) fun e w' _ _ hallowed id hid => ?_
  obtain rfl := Except.ok.inj hid
  exact hallowed

theorem runs_now : Runs S tracked now w := runs_quiet .clock fun _ _ => rfl

theorem does_pat (username token : String) :
    Does S tracked (fun c _ => c.refreshToken = none) (await (.pat username token)) w :=
  does_quiet (.pat username token) (fun _ _ => rfl) fun _ _ _ _ _ _ hc => refreshToken_of_pat hc

/-- The refresh token of a credential was never stored. -/
def Unseen (tracked : Prop) (w : World) (c : Credentials) : Prop :=
  tracked → ∀ t, c.refreshToken = some t → t ∉ w.tokens

theorem does_poll (flow : Flow) :
    Does S tracked (fun r w' => ∀ c, r = Polled.authorized c → Unseen tracked w' c)
      (await (.poll flow)) w := by
  refine does_quiet (.poll flow) (fun _ _ => rfl) fun e w' _ _ hallowed r hr => ?_
  rintro c rfl ht t htoken
  exact hallowed ht t (refreshToken_of_poll hr htoken)

theorem does_refresh (current : Credentials) :
    Does S tracked (fun c w' => Unseen tracked w' c) (await (.refresh current)) w := by
  refine yields_await (q := Request.refresh current) fun e w' hvalid _ hallowed => ?_
  have hstep := present_step hvalid current
  refine ⟨hstep.valid, hstep, fun c hc ht t htoken => ?_⟩
  exact hallowed ht t (refreshToken_of_refresh hc htoken)

theorem runs_result (st : State) (outcome code : String) :
    Runs S tracked (result S st outcome code) w := by
  by_cases h : S.audited = true
  · rw [result, if_pos h]
    exact runs_quiet (.recordResult (st.event outcome code)) fun _ _ => rfl
  · rw [result, if_neg h]
    exact yields_throw

theorem runs_verifyImages (c : Credentials) (images : List String) :
    Runs S tracked (verifyImages c images) w := by
  by_cases h : images.isEmpty = true
  · rw [verifyImages, if_pos h]
    exact yields_pure True.intro
  · rw [verifyImages, if_neg h]
    exact runs_quiet (.verifyImages c images) fun _ _ => rfl

/-! ## The store -/

theorem parseRegistryState_eq {dateParse : DateParse} {st : State}
    (h : parseRegistryState dateParse st = .ok st') : st' = st := by
  unfold parseRegistryState at h
  split at h
  · cases h
  · obtain ⟨_, -, h⟩ := Sql.bind_eq_ok.mp h
    cases h
    rfl

abbrev Snapshot.Fresh (s : Snapshot) (w : World) : Prop := (Fact.read s.version s.state).Holds w

theorem does_parse (st : State) : Does S tracked (fun st' _ => st' = st)
    (Program.lift (parseRegistryState S.dateParse st)) w :=
  yields_lift fun _ => parseRegistryState_eq

theorem does_read : Does S tracked Snapshot.Fresh (read S) w := by
  refine does_getState.bind fun secret w' _ hsecret => ?_
  have hread : (Fact.read secret.version secret.state).Holds w' := by
    rw [← hsecret.2]
    exact ⟨hsecret.1.version, fun _ => rfl⟩
  refine (does_parse secret.state).bind fun st w'' hlater hst => yields_pure ?_
  subst hst
  exact hlater (.read secret.version secret.state) hread

theorem does_putState {version : Nat} (h : (Put.state version st').Proper tracked w) :
    Does S tracked (fun s w' => s.state = st' ∧ s.Fresh w') (await (.putState version st')) w := by
  refine yields_await (q := Request.putState version st') fun e w' hvalid hlater _ => ?_
  have hstep := put_step e World.auth hvalid (h.later hlater)
  refine ⟨hstep.valid, hstep, fun s hs => ?_⟩
  replace hs : (e.put w' (.state version st') World.auth).1 = .ok s := hs
  show s.state = st' ∧ s.Fresh (e.put w' (.state version st') World.auth).2
  unfold Stamp.put at hs ⊢
  split at hs
  · split at hs
    next haccepted =>
      cases hs
      rw [if_pos haccepted]
      exact ⟨rfl, Nat.le_refl _, fun _ => rfl⟩
    next => cases hs
  all_goals cases hs

theorem does_write
    (h : (Put.state snapshot.version st').Proper tracked w) :
    Does S tracked (fun s w' => s.state = st' ∧ s.Fresh w') (write S snapshot st') w := by
  refine (does_putState h).bind fun secret w' _ hsecret => ?_
  refine (does_parse secret.state).bind fun st w'' hlater hst => yields_pure ?_
  subst hst
  exact ⟨hsecret.1, hlater (.read secret.version secret.state) hsecret.2⟩

/-- A write that changes neither the generation nor what was seen of the pull Secrets. -/
theorem does_keep (h : snapshot.Fresh w)
    (htransition : Transition .keep snapshot.state st') :
    Does S tracked (fun s w' => s.state = st' ∧ s.Fresh w') (write S snapshot st') w :=
  does_write ⟨snapshot.state, .keep, h, htransition, True.intro⟩

theorem does_renew (h : snapshot.Fresh w)
    (htransition : Transition .renew snapshot.state st') (hunknown : ¬w.Known st'.generation)
    (htoken : tracked → ∀ t, st'.refreshToken = some t →
      (Fact.unseen snapshot.version t).Holds w) :
    Runs S tracked (write S snapshot st') w := by
  have hproper : (Put.state snapshot.version st').Proper tracked w :=
    ⟨snapshot.state, .renew, h, htransition, ⟨h.1, fun _ => hunknown⟩, htoken⟩
  exact (does_write hproper).imp fun _ _ _ => True.intro

theorem does_assertFence (fence : Snapshot) :
    Does S tracked (fun _ w' => w'.Valid tracked ∧ w'.auth.version = fence.version)
      (assertFence fence) w := by
  refine does_getState.bind fun current w' _ hcurrent => ?_
  by_cases h : current.version = fence.version
  · rw [if_neg (not_not.mpr h)]
    exact yields_pure ⟨hcurrent.1, hcurrent.2 ▸ h⟩
  · rw [if_pos h]
    exact yields_throw

theorem runs_putPull {secret : PullSecret} (h : w.Armed ns secret) :
    Runs S tracked (await (.putPull ns secret)) w := by
  refine yields_await (q := Request.putPull ns secret) fun e w' hvalid hlater _ => ?_
  have harmed : (Put.pull ns secret).Proper tracked w' := hlater (.armed ns secret) h
  have hstep : w'.Step tracked (answer S.toPlatform e (.putPull ns secret) w').2 := by
    simp only [answer]
    split
    · exact .refl hvalid
    · exact put_step e _ hvalid harmed
  exact ⟨hstep.valid, hstep, fun _ _ => True.intro⟩

/-- Behind the fence a pull Secret may be written that was read before. -/
theorem armed_of_fence {old : PullSecret} (hw : w.Valid tracked)
    (hfence : fence.Fresh w) (hversion : w.auth.version = fence.version)
    (hns : ns ∈ registryNamespaces) (hold : old.version ≤ w.revision) :
    w.Armed ns (old.next fence.state.generation fence.state.dockerconfigjson) := by
  have hstate : w.auth.state = fence.state := hfence.2 hversion
  obtain ⟨rest, hhistory⟩ := hw.stored
  refine ⟨hns, hold, ⟨fence.state.generation, ?_, rfl⟩, fun _ => ?_, fun _ _ _ => .inl ?_,
    fun _ _ _ g hg => ?_⟩
  · rw [← hstate, World.generations, hhistory]
    exact List.mem_cons_self ..
  · rw [hstate]
    rfl
  · rw [hstate]
    rfl
  · obtain rfl : fence.state.generation = g := Option.some.inj hg
    rw [← hstate]
    exact hw.last

theorem runs_propagate (hfence : fence.Fresh w)
    (hns : ns ∈ registryNamespaces) :
    Runs S tracked (propagate fence.state.generation fence.state.dockerconfigjson fence ns) w := by
  refine (does_getPull ns).bind fun o w₁ hlater₁ ho => ?_
  cases o with
  | none => exact yields_throw
  | some old =>
      dsimp only
      by_cases htype : old.type ≠ "kubernetes.io/dockerconfigjson"
      · rw [if_pos htype]
        exact yields_throw
      rw [if_neg htype]
      by_cases hmatches :
          old.matches fence.state.generation fence.state.dockerconfigjson = true
      · rw [if_pos hmatches]
        exact yields_pure True.intro
      rw [if_neg hmatches]
      refine (does_assertFence fence).bind fun _ w₂ hlater₂ hfence' => ?_
      have hlater := hlater₁.trans hlater₂
      have harmed := armed_of_fence hfence'.1
        (hlater (.read fence.version fence.state) hfence) hfence'.2 hns
        (hlater₂ (.given old.version) (ho.2 old rfl))
      refine (runs_putPull harmed).bind fun value w₃ _ _ => ?_
      cases value with
      | none => exact yields_throw
      | some p => exact yields_pure True.intro

theorem does_verify (hfence : fence.Fresh w) (ns : String) :
    Does S tracked (fun _ w' => (Fact.verified fence.version ns).Holds w')
      (verify fence.state.generation fence.state.dockerconfigjson ns) w := by
  refine (does_getPull ns).bind fun o w' hlater ho => ?_
  by_cases hmatches : o.any
      (·.matches fence.state.generation fence.state.dockerconfigjson) = true
  · rw [if_pos hmatches]
    refine yields_pure ?_
    obtain ⟨p, rfl, hp⟩ := (Option.any_eq_true _ _).mp hmatches
    obtain ⟨hdata, hgeneration⟩ := Bool.and_eq_true_iff.mp hp
    have hread := hlater (.read fence.version fence.state) hfence
    refine ⟨hread.1, fun hversion => ⟨p, ho.1, ?_⟩⟩
    rw [hread.2 hversion]
    exact ⟨beq_iff_eq.mp hgeneration, beq_iff_eq.mp hdata⟩
  · rw [if_neg hmatches]
    exact yields_throw

/-- A loop establishes for each element what its body establishes for one. -/
theorem does_forEach {f : String → Routine Unit} {fact : String → Fact} {l : List String}
    (hfence : fence.Fresh w)
    (hf : ∀ x ∈ l, ∀ w', fence.Fresh w' → Does S tracked (fun _ w'' => (fact x).Holds w'') (f x) w') :
    Does S tracked (fun _ w' => ∀ x ∈ l, (fact x).Holds w') (forEach f l) w := by
  induction l generalizing w with
  | nil => exact yields_pure fun x hx => (nomatch hx)
  | cons x l ih =>
      refine (hf x (List.mem_cons_self ..) w hfence).bind fun _ w' hlater hx => ?_
      have hrest := ih (hlater (.read fence.version fence.state) hfence)
        fun y hy => hf y (List.mem_cons_of_mem _ hy)
      refine Yields.imp (Yields.frame (discipline_closed tracked) hrest) fun _ w'' h => ?_
      intro y hy
      rcases List.mem_cons.mp hy with rfl | hy
      · exact h.1 (fact y) hx
      · exact h.2 y hy

theorem does_synchronize (hfence : fence.Fresh w) :
    Does S tracked (fun _ w' => ∀ ns ∈ registryNamespaces,
        (Fact.verified fence.version ns).Holds w')
      (synchronize fence.state.credentials fence.state.generation fence) w := by
  have hpropagate : Does S tracked (fun _ w' => ∀ ns ∈ registryNamespaces,
      (Fact.read fence.version fence.state).Holds w')
      (forEach (propagate fence.state.generation fence.state.dockerconfigjson fence)
        registryNamespaces) w := by
    refine does_forEach hfence fun ns hns w' hfence' => ?_
    refine Yields.imp (Yields.frame (discipline_closed tracked) (runs_propagate hfence' hns)) ?_
    exact fun _ w'' h => h.1 (.read fence.version fence.state) hfence'
  refine hpropagate.bind fun _ w₁ hlater₁ _ => ?_
  have hfence₁ := hlater₁ (.read fence.version fence.state) hfence
  refine (does_forEach hfence₁ fun ns _ w' hfence' => does_verify hfence' ns).bind
    fun _ w₂ _ hverified => ?_
  refine (does_assertFence fence).bind fun _ w₃ hlater₃ _ => yields_pure fun ns hns => ?_
  exact hlater₃ (.verified fence.version ns) (hverified ns hns)

/-! ## The broker -/

theorem does_available :
    Does S tracked (fun s w' => s.Fresh w' ∧ s.state.Idle) (available S) w := by
  refine does_read.bind fun snapshot w' _ hfresh => ?_
  cases hwork : snapshot.state.work with
  | some work => exact yields_throw
  | none =>
      cases hpending : snapshot.state.pending with
      | some pending => exact yields_throw
      | none =>
          cases hoperation : snapshot.state.operation with
          | some operation => exact yields_throw
          | none => exact yields_pure ⟨hfresh, hwork, hpending⟩

theorem runs_startAuthorization (hfresh : snapshot.Fresh w)
    (hoperation : snapshot.state.operation.isSome = true) (operation : Operation) :
    Runs S tracked (startAuthorization S snapshot operation) w := by
  refine (runs_quiet (.assertAuthority operation) fun _ _ => rfl).bind fun _ w₁ hlater₁ _ => ?_
  refine (runs_quiet (.start S.clientId) fun _ _ => rfl).bind fun flow w₂ hlater₂ _ => ?_
  have hfresh₂ := hlater₂ (.read _ _) (hlater₁ (.read _ _) hfresh)
  exact (does_keep hfresh₂ (.started operation flow hoperation)).imp fun _ _ _ => True.intro

theorem runs_beginOAuth (operation : Operation) :
    Runs S tracked (beginOAuth S operation) w := by
  by_cases hclient : S.clientId = ""
  · rw [beginOAuth, if_pos hclient]
    exact yields_throw
  rw [beginOAuth, if_neg hclient]
  refine does_available.bind fun snapshot w₁ _ h => ?_
  refine does_newId.bind fun id w₂ hlater₂ _ => ?_
  refine runs_now.bind fun startedAt w₃ hlater₃ _ => ?_
  have hfresh₃ := hlater₃ (.read _ _) (hlater₂ (.read _ _) h.1)
  refine (does_keep hfresh₃ (.begin operation id startedAt h.2)).bind fun marked w₄ _ hmarked => ?_
  have hdoing : marked.state.doing .deviceStart := by
    rw [hmarked.1]
    exact ⟨_, rfl, rfl⟩
  have hoperation : marked.state.operation.isSome = true := by
    rw [hmarked.1]
    rfl
  have hpending : marked.state.pending = none := by
    rw [hmarked.1]
    exact h.2.pending
  refine Does.tryCatch ?_ fun e w₅ hlater₅ => ?_
  · refine (runs_startAuthorization hmarked.2 hoperation operation).bind fun _ _ _ _ => ?_
    exact yields_pure True.intro
  · refine (runs_result ..).bind fun _ w₆ hlater₆ _ => ?_
    have hfresh₆ := hlater₆ (.read _ _) (hlater₅ (.read _ _) hmarked.2)
    exact (does_keep hfresh₆ (.startFailed hdoing hpending)).bind fun _ _ _ _ => yields_throw

theorem unseen_facts {c : Credentials} {version : Nat} (h : Unseen tracked w c)
    (hversion : version ≤ w.revision) (ht : tracked) {t : String} (htoken : c.refreshToken = some t) :
    (Fact.unseen version t).Holds w := ⟨hversion, fun _ => h ht t htoken⟩

theorem runs_replace (operation : Operation) (username token : String) :
    Runs S tracked (replace S operation username token) w := by
  refine does_available.bind fun snapshot w₁ _ h => ?_
  refine (does_pat username token).bind fun checked w₂ hlater₂ hchecked => ?_
  refine (runs_verifyImages checked _).bind fun _ w₃ hlater₃ _ => ?_
  have hlift : Runs S tracked (Program.lift (validateCredential S.dateParse checked)) w₃ :=
    yields_lift fun _ _ => True.intro
  refine hlift.bind fun _ w₄ hlater₄ _ => ?_
  refine (runs_quiet (.assertAuthority operation) fun _ _ => rfl).bind fun _ w₅ hlater₅ _ => ?_
  refine does_newId.bind fun id w₆ hlater₆ hid => ?_
  have hlater := (((hlater₂.trans hlater₃).trans hlater₄).trans hlater₅).trans hlater₆
  refine Does.bind (does_renew (hlater (.read _ _) h.1) (.replaced checked id operation h.2 hchecked)
    hid fun _ t htoken => ?_) fun _ _ _ _ => yields_pure True.intro
  cases hchecked.symm.trans htoken

theorem runs_remove (operation : Operation) : Runs S tracked (remove S operation) w := by
  refine does_available.bind fun snapshot w₁ _ h => ?_
  refine (runs_quiet (.assertAuthority operation) fun _ _ => rfl).bind fun _ w₂ hlater₂ _ => ?_
  refine does_newId.bind fun id w₃ hlater₃ hid => ?_
  exact Does.bind (does_renew ((hlater₂.trans hlater₃) (.read _ _) h.1) (.removed id operation h.2)
    hid fun _ _ htoken => (nomatch htoken)) fun _ _ _ _ => yields_pure True.intro

theorem does_takeImages (hfresh : snapshot.Fresh w) :
    Does S tracked Snapshot.Fresh (takeImages S snapshot) w := by
  unfold takeImages
  split
  next hidle =>
    simp only [Bool.and_eq_true, Option.isNone_iff_eq_none] at hidle
    refine (runs_quiet .installationImages fun _ _ => rfl).bind fun images w₁ hlater₁ _ => ?_
    have hlift : Runs S tracked (Program.lift (initialRegistryState S.dateParse
        snapshot.state.credentials images snapshot.state.generation)) w₁ :=
      yields_lift fun _ _ => True.intro
    refine hlift.bind fun _ w₂ hlater₂ _ => ?_
    have hfresh₂ := (hlater₁.trans hlater₂) (.read _ _) hfresh
    split
    · exact yields_pure hfresh₂
    · refine (does_keep hfresh₂ (.images images ⟨hidle.1.2, hidle.2⟩)).imp fun s w' hs => ?_
      rw [← hs.1] at hs
      exact hs.2
  next => exact yields_pure hfresh

theorem runs_pollAuthorization (hfresh : snapshot.Fresh w) (before : State)
    (pending : Pending) : Runs S tracked (pollAuthorization S snapshot before pending) w := by
  refine (runs_quiet (.assertAuthority pending.operation) fun _ _ => rfl).bind
    fun _ w₁ hlater₁ _ => ?_
  refine (does_poll pending.flow).bind fun response w₂ hlater₂ hresponse => ?_
  have hfresh₂ := (hlater₁.trans hlater₂) (.read _ _) hfresh
  cases response with
  | pending flow =>
      exact (does_keep hfresh₂ (.polled { pending with flow := flow })).bind
        fun _ _ _ _ => yields_pure True.intro
  | authorized c =>
      have hlift : Runs S tracked (Program.lift (validateCredential S.dateParse c)) w₂ :=
        yields_lift fun _ _ => True.intro
      refine hlift.bind fun _ w₃ hlater₃ _ => ?_
      refine (runs_verifyImages c _).bind fun _ w₄ hlater₄ _ => ?_
      refine (runs_quiet (.assertAuthority pending.operation) fun _ _ => rfl).bind
        fun _ w₅ hlater₅ _ => ?_
      refine does_newId.bind fun id w₆ hlater₆ hid => ?_
      have hlater := ((hlater₃.trans hlater₄).trans hlater₅).trans hlater₆
      refine Does.bind (does_renew (hlater (.read _ _) hfresh₂) (.authorized c id) hid
        fun ht t htoken => ?_) fun _ _ _ _ => yields_pure True.intro
      exact hlater (.unseen _ _) (unseen_facts (hresponse c rfl) hfresh₂.1 ht htoken)

theorem runs_refreshCredentials (hfresh : snapshot.Fresh w) (before : State)
    (work : Work) (current : Credentials) :
    Runs S tracked (refreshCredentials S snapshot before work current) w := by
  refine (runs_result ..).bind fun _ w₁ hlater₁ _ => ?_
  refine (does_refresh current).bind fun c w₂ hlater₂ hc => ?_
  have hfresh₂ := (hlater₁.trans hlater₂) (.read _ _) hfresh
  have hlift : Runs S tracked (Program.lift (validateCredential S.dateParse c)) w₂ :=
    yields_lift fun _ _ => True.intro
  refine hlift.bind fun _ w₃ hlater₃ _ => ?_
  refine does_newId.bind fun id w₄ hlater₄ hid => ?_
  have hlater := hlater₃.trans hlater₄
  refine Does.bind (does_renew (hlater (.read _ _) hfresh₂) (.refreshed c id _) hid
    fun ht t htoken => ?_) fun _ _ _ _ => yields_pure True.intro
  exact hlater (.unseen _ _) (unseen_facts hc hfresh₂.1 ht htoken)

theorem runs_checkStored (before : State) : Runs S tracked (checkStored S before) w := by
  unfold checkStored
  split
  next c _ =>
    refine (runs_quiet (.inspect c.token c.username c.lifecycle.userId) fun _ _ => rfl).bind
      fun _ w₁ _ _ => ?_
    refine runs_now.bind fun time w₂ _ _ => ?_
    split
    · exact yields_throw
    · exact runs_verifyImages c _
  next => exact yields_pure True.intro

/-- What `tick` knows once its work is stored: the state is the one before with the work. -/
structure Taken (snapshot : Snapshot) (before : State) (work : Work) : Prop where
  state : snapshot.state = { before with work := some work, retryAt := none }
  due : before.Due
  ripe : before.Ripe work.kind

theorem Taken.stillDue
    (h : Taken snapshot before work) : snapshot.state.Due := by
  rw [h.state]
  exact ⟨h.due.phase, h.due.operation⟩

theorem Taken.doing {kind : WorkKind}
    (h : Taken snapshot before work) (hkind : work.kind = kind) : snapshot.state.doing kind := by
  rw [h.state]
  exact ⟨work, rfl, hkind⟩

theorem runs_propagateCredentials
    (hfresh : snapshot.Fresh w) (h : Taken snapshot before work) (hkind : work.kind = .propagate) :
    Runs S tracked (propagateCredentials S snapshot before) w := by
  refine (runs_checkStored before).bind fun _ w₁ hlater₁ _ => ?_
  have hfresh₁ := hlater₁ (.read _ _) hfresh
  have hsynchronize : Does S tracked (fun _ w' => ∀ ns ∈ registryNamespaces,
      (Fact.verified snapshot.version ns).Holds w')
      (synchronize snapshot.state.credentials snapshot.state.generation snapshot) w₁ :=
    does_synchronize hfresh₁
  have hcredentials : snapshot.state.credentials = before.credentials := by rw [h.state]
  have hgeneration : snapshot.state.generation = before.generation := by rw [h.state]
  rw [hcredentials, hgeneration] at hsynchronize
  refine hsynchronize.bind fun namespaces w₂ hlater₂ hverified => ?_
  refine (runs_result ..).bind fun _ w₃ hlater₃ _ => ?_
  refine runs_now.bind fun time w₄ hlater₄ _ => ?_
  have hlater := hlater₃.trans hlater₄
  have hripe := h.ripe
  rw [hkind] at hripe
  have hpending : snapshot.state.pending = none := by
    rw [h.state]
    exact hripe
  have hproper : (Put.state snapshot.version
      (snapshot.state.propagated before (S.isoDate time) namespaces)).Proper tracked w₄ :=
    ⟨snapshot.state, .complete, (hlater₂.trans hlater) (.read _ _) hfresh₁,
      .propagated before _ _ h.stillDue hpending (h.doing hkind) hcredentials.symm,
      fun ns hns => hlater (.verified _ ns) (hverified ns hns)⟩
  exact (does_write hproper).bind fun _ _ _ _ => yields_pure True.intro

theorem runs_recover
    (hfresh : snapshot.Fresh w) (h : Taken snapshot before work) (e : Failure) :
    Runs S tracked (recover S snapshot before work.kind e) w := by
  by_cases hconflict : e.code = some "CredentialConflict"
  · rw [recover, if_pos hconflict]
    exact yields_throw
  rw [recover, if_neg hconflict]
  refine (runs_result ..).bind fun _ w₁ hlater₁ _ => ?_
  refine runs_now.bind fun time w₂ hlater₂ _ => ?_
  refine (does_keep ((hlater₁.trans hlater₂) (.read _ _) hfresh)
    (.failed before _ _ _ fun hreauthorize => ?_)).bind fun _ _ _ _ => yields_pure True.intro
  have hripe := h.ripe
  simp only [Bool.or_eq_false_iff, decide_eq_false_iff_not] at hreauthorize
  obtain ⟨⟨hrefresh, hpoll⟩, -⟩ := hreauthorize
  refine ⟨h.stillDue, ?_⟩
  rw [h.state]
  cases hkind : work.kind with
  | deviceStart =>
      rw [hkind] at hripe
      exact hripe.elim
  | devicePoll => exact absurd hkind hpoll
  | refresh => exact absurd hkind hrefresh
  | propagate =>
      rw [hkind] at hripe
      exact ⟨hripe, ⟨work, rfl, hkind⟩, rfl⟩

theorem runs_takeOn (hfresh : snapshot.Fresh w)
    (hwork : snapshot.state.work = none)
    (hdue : snapshot.state.Due) (job : Job)
    (hripe : snapshot.state.Ripe job.kind) : Runs S tracked (takeOn S snapshot job) w := by
  refine does_newId.bind fun id w₁ hlater₁ _ => ?_
  refine runs_now.bind fun startedAt w₂ hlater₂ _ => ?_
  refine (does_keep ((hlater₁.trans hlater₂) (.read _ _) hfresh)
    (.takenOn ⟨id, job.kind, startedAt⟩ hwork hdue hripe)).bind fun marked w₃ _ hmarked => ?_
  have htaken : Taken marked snapshot.state ⟨id, job.kind, startedAt⟩ :=
    ⟨hmarked.1, hdue, hripe⟩
  refine Does.tryCatch ?_ fun e w₄ hlater₄ =>
    runs_recover (hlater₄ (.read _ _) hmarked.2) htaken e
  cases job with
  | poll pending => exact runs_pollAuthorization hmarked.2 _ pending
  | refresh current => exact runs_refreshCredentials hmarked.2 _ _ current
  | propagate => exact runs_propagateCredentials hmarked.2 htaken rfl

theorem runs_consider (hfresh : snapshot.Fresh w)
    (hwork : snapshot.state.work = none)
    (hphase : snapshot.state.phase ≠ .reauthorizationRequired) :
    Runs S tracked (consider S snapshot) w := by
  refine runs_now.bind fun retryTime w₁ hlater₁ _ => ?_
  split
  · exact yields_pure True.intro
  refine runs_now.bind fun refreshTime w₂ hlater₂ _ => ?_
  refine runs_now.bind fun checkTime w₃ hlater₃ _ => ?_
  refine runs_now.bind fun pollTime w₄ hlater₄ _ => ?_
  have hfresh₄ := (((hlater₁.trans hlater₂).trans hlater₃).trans hlater₄) (.read _ _) hfresh
  split
  · exact yields_pure True.intro
  next hanonymous =>
    have hdue : snapshot.state.Due := by
      refine ⟨hphase, fun h => ?_⟩
      cases hoperation : snapshot.state.operation with
      | some operation => rfl
      | none => exact absurd (by simp [h, hoperation]) hanonymous
    split
    · exact yields_pure True.intro
    split
    next pending hpending =>
      split
      · exact yields_pure True.intro
      · refine runs_takeOn hfresh₄ hwork hdue (.poll pending) ?_
        show snapshot.state.pending.isSome = true
        rw [hpending]
        rfl
    next c hpending _ =>
      split
      · exact runs_takeOn hfresh₄ hwork hdue (.refresh c) hpending
      · exact runs_takeOn hfresh₄ hwork hdue .propagate hpending
    next hpending _ => exact runs_takeOn hfresh₄ hwork hdue .propagate hpending

theorem runs_tick : Runs S tracked (tick S) w := by
  refine does_read.bind fun first w₁ _ hfirst => ?_
  refine (does_takeImages hfirst).bind fun snapshot w₂ _ hfresh => ?_
  split
  next work _ =>
    refine runs_now.bind fun time w₃ hlater₃ _ => ?_
    split
    · exact yields_pure True.intro
    refine (runs_result ..).bind fun _ w₄ hlater₄ _ => ?_
    exact (does_keep ((hlater₃.trans hlater₄) (.read _ _) hfresh) .interrupted).bind
      fun _ _ _ _ => yields_pure True.intro
  next hwork =>
    split
    · exact yields_pure True.intro
    next hphase => exact runs_consider hfresh hwork hphase

theorem runs_program (c : Call) : Runs S tracked (c.program S) w := by
  cases c with
  | beginOAuth operation => exact runs_beginOAuth operation
  | replace operation username token => exact runs_replace operation username token
  | remove operation => exact runs_remove operation
  | tick => exact runs_tick

end

theorem setting_fits (S : Service) (tracked : Prop) : (setting S).Fits (discipline tracked) where
  closed := discipline_closed tracked
  program c _ _ := runs_program c
  change n _ hw := ⟨(arrive_step hw n).valid, arrive_step hw n⟩

end Registry
