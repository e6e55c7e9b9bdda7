import Mathlib.Data.List.Pairwise
import OpenSphere.Properties.Convergence

/-!
# Orphaned and stolen Pods

Any number of reconcilers work on the rows, crash, and lose their claims, while
Pods come and go.  `World.Valid` says how the rows and the Pods belong together,
and `World.Later` what no step undoes: a call of `reconcile` that was answered
some time ago still knows that much.

Two things are not fenced.  A Pod is created by whoever once saw its session
Pending, and is recorded only by a later transition.  And a Pod is deleted by
its name and UID, whoever holds the claim by then.  `Sound` names the states in
which these requests do no harm.  In every run that keeps to them a session that
has ended has no Pod, and a reconciler whose claim was superseded does not delete
the recorded Pod of the session.
-/

open Sql
open System (Safe Discipline)

namespace ConsoleShell

variable {C : ShellCrypto} {t : Clock} {db db' : Shell} {r r' row : ShellSession} {w w' : World}
  {k : Uuid}
variable {e : Stamp} {pod : Pod} {config : Config} {reclaimed : Bool} {b : Base}
  {post : Except Thrown Unit → World → Prop} {i : TransitionInput} {p : TransitionArgs}

/-! ## Worlds -/

/-- A session that will not get a Pod any more. -/
def ShellSession.Ending (r : ShellSession) : Prop :=
  r.observedState = .terminating ∨ r.observedState = .terminated

def World.session (w : World) (k : Uuid) : Option ShellSession := w.shell.sessions.lookup (some k)

/-- How a row and the Pods belong together. -/
structure RowValid (c : Cluster) (k : Uuid) (r : ShellSession) : Prop where
  recorded : ∀ u, r.runtimeUid = some u → ∃ p ∈ c.created, p.uid.text = u ∧ p.sessionId = k ∧
    p.generation = r.generation
  pending : r.observedState = .pending → r.runtimeUid = none
  unrecorded : r.Ending → r.runtimeUid = none → ∀ p ∈ c.pods, p.sessionId ≠ k
  ended : r.observedState = .terminated → ∀ p ∈ c.pods, p.sessionId ≠ k

/-- Every row belongs together with the Pods. -/
def World.Valid (w : World) : Prop := ∀ k r, w.session k = some r → RowValid w.cluster k r

/-- A row later, when the Pods `created` have been created. -/
structure Onward (created : List Pod) (r r' : ShellSession) : Prop where
  later : Later r r'
  ending : r.Ending → r'.Ending ∧ r'.runtimeUid = r.runtimeUid
  recorded : ∀ u, r'.runtimeUid = some u → r.runtimeUid = some u ∨
    ∃ p ∈ created, p.uid.text = u ∧ r.fencingEpoch ≤ p.fencingEpoch

theorem Onward.refl (created : List Pod) (r : ShellSession) : Onward created r r :=
  ⟨.refl r, fun h => ⟨h, rfl⟩, fun _ h => .inl h⟩

theorem Onward.trans {created created' : List Pod} {r'' : ShellSession}
    (hcreated : ∀ p ∈ created, p ∈ created') (h : Onward created r r')
    (h' : Onward created' r' r'') : Onward created' r r'' where
  later := h.later.trans h'.later
  ending hr := by
    obtain ⟨hending, huid⟩ := h.ending hr
    obtain ⟨hending', huid'⟩ := h'.ending hending
    exact ⟨hending', huid'.trans huid⟩
  recorded u hu := by
    rcases h'.recorded u hu with hr' | ⟨p, hp, hpu, hepoch⟩
    · rcases h.recorded u hr' with hr | ⟨p, hp, hpu, hepoch⟩
      · exact .inl hr
      · exact .inr ⟨p, hcreated p hp, hpu, hepoch⟩
    · exact .inr ⟨p, hp, hpu, le_trans h.later.epoch hepoch⟩

structure World.Later (w w' : World) : Prop where
  rows : ∀ k r, w.session k = some r → ∃ r', w'.session k = some r' ∧ Onward w'.cluster.created r r'
  created : ∀ p ∈ w.cluster.created, p ∈ w'.cluster.created
  pods : ∀ k r, w.session k = some r → r.Ending → ∀ p ∈ w'.cluster.pods, p.sessionId = k →
    p ∈ w.cluster.pods

theorem World.Later.refl (w : World) : w.Later w :=
  ⟨fun _ r hr => ⟨r, hr, .refl _ r⟩, fun _ hp => hp, fun _ _ _ _ _ hp _ => hp⟩

theorem World.Later.trans {w'' : World} (h : w.Later w') (h' : w'.Later w'') : w.Later w'' where
  rows k r hr := by
    obtain ⟨r', hr', honward⟩ := h.rows k r hr
    obtain ⟨r'', hr'', honward'⟩ := h'.rows k r' hr'
    exact ⟨r'', hr'', honward.trans h'.created honward'⟩
  created p hp := h'.created p (h.created p hp)
  pods k r hr hending p hp hk := by
    obtain ⟨r', hr', honward⟩ := h.rows k r hr
    exact h.pods k r hr hending p (h'.pods k r' hr' (honward.ending hending).1 p hp hk) hk

/-- A row that the database held at some time, and the world since. -/
def Snapshot (row : ShellSession) (w : World) : Prop :=
  ∃ w₀ : World, w₀.Valid ∧ w₀.session row.sessionId = some row ∧ w₀.Later w

theorem Snapshot.later (h : Snapshot row w) (hlater : w.Later w') : Snapshot row w' := by
  obtain ⟨w₀, hvalid, hrow, hw⟩ := h
  exact ⟨w₀, hvalid, hrow, hw.trans hlater⟩

theorem Snapshot.of_row (hvalid : w.Valid) (hrow : w.session row.sessionId = some row) :
    Snapshot row w :=
  ⟨w, hvalid, hrow, .refl w⟩

theorem Snapshot.session (h : Snapshot row w) :
    ∃ r, w.session row.sessionId = some r ∧ Onward w.cluster.created row r := by
  obtain ⟨w₀, -, hrow, hlater⟩ := h
  exact hlater.rows _ _ hrow

/-! ## What a call returns is what it stores -/

theorem Shell.Replaces.lookup {f : ShellSession → ShellSession} {sessions : Table shellSessionSchema}
    (h : db.Replaces r f sessions) :
    sessions.lookup (some (f r).sessionId) = some (f r) := by
  obtain ⟨y, hy, ⟨-, hne⟩ | ⟨-, rfl⟩⟩ := exists_of_forall₂ h.2.flip h.1
  · exact absurd rfl hne
  · exact Table.lookup_eq_some.mpr ⟨hy, rfl⟩

theorem transition_returns (h : transitionShellSession C t p db = .ok (db', r')) :
    db'.sessions.lookup (some r'.sessionId) = some r' := by
  obtain ⟨r, _, _, _, _, rfl, -, -, hreplaces, rfl⟩ := transition_eq_ok h
  exact hreplaces.lookup

theorem reproject_returns {p : ReprojectArgs} (h : reprojectShellRuntime t p db = .ok (db', r')) :
    db'.sessions.lookup (some r'.sessionId) = some r' := by
  simp only [reprojectShellRuntime, bind_eq_ok, orRaise_eq_ok, pure_eq_ok] at h
  obtain ⟨r, hlook, _, -, db₁, hupdate, db₂, hexpire, db₃, happend, heq⟩ := h
  cases heq
  obtain ⟨-, sessions, hreplaces, rfl⟩ := updateSession_replaces hlook hupdate
  obtain ⟨tickets, -, rfl⟩ := expireTickets_eq_ok.mp hexpire
  obtain ⟨events, rfl⟩ := append_eq_ok happend
  exact hreplaces.lookup

theorem revoke_returns {f : Fence} {reasonCode : Option String}
    (h : revokeShellSessionAuthority C t f reasonCode db = .ok (db', r')) :
    db'.sessions.lookup (some r'.sessionId) = some r' := by
  obtain ⟨r, _, _, _, _, rfl, -, -, hreplaces, -, rfl⟩ := revoke_eq_ok h
  exact hreplaces.lookup

/-! ## Steps of the database -/

/-- A new database whose rows go on from the old ones. -/
theorem shell_step (hvalid : w.Valid)
    (h : ∀ k, db'.sessions.lookup (some k) = w.session k ∨
      (∃ r r', w.session k = some r ∧ db'.sessions.lookup (some k) = some r' ∧
        Onward w.cluster.created r r' ∧ RowValid w.cluster k r') ∨
      ∃ r, w.session k = none ∧ db'.sessions.lookup (some k) = some r ∧ RowValid w.cluster k r) :
    World.Valid ⟨db', w.cluster⟩ ∧ w.Later ⟨db', w.cluster⟩ := by
  refine ⟨fun k r hr => ?_, fun k r hr => ?_, fun _ hp => hp, fun _ _ _ _ _ hp _ => hp⟩
  · rcases h k with hsame | ⟨x, y, -, hy, -, hrow⟩ | ⟨y, -, hy, hrow⟩
    · exact hvalid k r (hsame ▸ hr)
    · cases hy.symm.trans hr
      exact hrow
    · cases hy.symm.trans hr
      exact hrow
  · rcases h k with hsame | ⟨x, y, hx, hy, honward, -⟩ | ⟨y, hnone, -⟩
    · exact ⟨r, hsame.trans hr, .refl _ r⟩
    · cases hx.symm.trans hr
      exact ⟨y, hy, honward⟩
    · cases hnone.symm.trans hr

/-- A change that leaves the state and the runtime of a session alone. -/
structure Quiet (r r' : ShellSession) : Prop where
  observedState : r'.observedState = r.observedState
  runtimeUid : r'.runtimeUid = r.runtimeUid
  generation : r'.generation = r.generation

theorem Change.quiet {c : Call} (h : Change C t db c r r') (hc : c.reconciles = false) :
    Quiet r r' := by
  cases h with
  | reprojected => cases hc
  | moved => cases hc
  | _ => exact ⟨rfl, rfl, rfl⟩

theorem Quiet.ending (h : Quiet r r') : r'.Ending ↔ r.Ending := by
  rw [ShellSession.Ending, ShellSession.Ending, h.observedState]

theorem Quiet.onward (h : Quiet r r') (hlater : Later r r') (created : List Pod) :
    Onward created r r' where
  later := hlater
  ending hr := ⟨h.ending.mpr hr, h.runtimeUid⟩
  recorded _ hu := .inl (h.runtimeUid ▸ hu)

theorem Quiet.valid {c : Cluster} (h : Quiet r r') (hvalid : RowValid c k r) : RowValid c k r' where
  recorded u hu := by
    rw [h.generation]
    exact hvalid.recorded u (h.runtimeUid ▸ hu)
  pending hstate := by
    rw [h.runtimeUid]
    exact hvalid.pending (h.observedState ▸ hstate)
  unrecorded hending hnone := hvalid.unrecorded (h.ending.mp hending) (h.runtimeUid ▸ hnone)
  ended hstate := hvalid.ended (h.observedState ▸ hstate)

theorem newSession_valid {p : CreateArgs} (h : newSession t.now p = .ok r) (c : Cluster)
    (k : Uuid) : RowValid c k r := by
  have hstate : r.observedState = .pending := (newSession_row h).1
  have huid : r.runtimeUid = none := by
    simp only [newSession, bind_eq_ok, pure_eq_ok] at h
    obtain ⟨_, -, _, -, _, -, _, -, _, -, _, -, _, -, _, -, _, -, _, -, _, -, _, -, _, -, _, -, _, -,
      _, -, rfl⟩ := h
    rfl
  refine ⟨fun u hu => ?_, fun _ => huid, fun hending => ?_, fun hended => ?_⟩
  · rw [huid] at hu
    cases hu
  · rw [ShellSession.Ending, hstate] at hending
    rcases hending with h | h <;> cases h
  · rw [hstate] at hended
    cases hended

theorem call_world {c : Call} (hc : c.reconciles = false) (hvalid : w.Valid)
    (h : c.exec C t w.shell = .ok db') :
    World.Valid ⟨db', w.cluster⟩ ∧ w.Later ⟨db', w.cluster⟩ := by
  refine shell_step hvalid fun k => ?_
  rcases (call_step h).sessions.lookup k with hsame | ⟨r, r', hr, hr', hchange⟩ |
    ⟨p, r, -, hcreated, hnone, hr⟩
  · exact .inl hsame
  · have hquiet := hchange.quiet hc
    exact .inr (.inl ⟨r, r', hr, hr', hquiet.onward hchange.later _, hquiet.valid (hvalid k r hr)⟩)
  · exact .inr (.inr ⟨r, hnone, hr, newSession_valid hcreated.row _ _⟩)

theorem perform_world {a : Action} (ha : a.outside = true) (hvalid : w.Valid) :
    World.Valid ⟨perform C a w.shell, w.cluster⟩ ∧ w.Later ⟨perform C a w.shell, w.cluster⟩ := by
  rcases perform_step C a w.shell with ⟨hsame, -⟩ | ⟨t, c, rfl, hok, -⟩
  · exact shell_step hvalid fun k => .inl (by rw [hsame]; rfl)
  · exact call_world (by simpa [Action.outside] using ha) hvalid hok

/-- What a transition of `reconcile` has to meet, of the row `r` it moves to `next`. -/
structure Moves (c : Cluster) (p : TransitionArgs) (next : Observed) (r : ShellSession) : Prop where
  state : r.Ending → next = .terminated
  started : next ≠ .pending
  runtimeUid : r.runtimeUid = none → p.runtimeUid = none ∨
    next ≠ .terminating ∧ next ≠ .terminated ∧ ∃ pod ∈ c.created,
      p.runtimeUid = some pod.uid.text ∧ pod.sessionId = r.sessionId ∧
      pod.generation = r.generation ∧ r.fencingEpoch ≤ pod.fencingEpoch
  terminating : next = .terminating → r.runtimeUid = none → ∀ pod ∈ c.pods,
    pod.sessionId ≠ r.sessionId
  terminated : next = .terminated → ∀ pod ∈ c.pods, pod.sessionId ≠ r.sessionId

section

variable {c : Cluster} {p : TransitionArgs} {now : Timestamp} {revision : String} {next : Observed}

theorem moved_runtimeUid : (r.moved now p revision next).runtimeUid = r.runtimeUid.or p.runtimeUid :=
  rfl

theorem moved_ending (h : (r.moved now p revision next).Ending) :
    next = .terminating ∨ next = .terminated := h

theorem Moves.onward (h : Moves c p next r) (hlater : Later r (r.moved now p revision next)) :
    Onward c.created r (r.moved now p revision next) where
  later := hlater
  ending hr := by
    obtain rfl := h.state hr
    refine ⟨.inr rfl, ?_⟩
    rw [moved_runtimeUid]
    cases huid : r.runtimeUid with
    | some u => rfl
    | none =>
        rcases h.runtimeUid huid with hnone | ⟨-, hno, -⟩
        · rw [hnone]
          rfl
        · exact absurd rfl hno
  recorded u hu := by
    rw [moved_runtimeUid] at hu
    cases huid : r.runtimeUid with
    | some v =>
        rw [huid] at hu
        exact .inl hu
    | none =>
        rw [huid, Option.none_or] at hu
        rcases h.runtimeUid huid with hnone | ⟨-, -, pod, hpod, hp, -, -, hepoch⟩
        · rw [hnone] at hu
          cases hu
        · rw [hp] at hu
          exact .inr ⟨pod, hpod, Option.some.inj hu, hepoch⟩

theorem Moves.valid (h : Moves c p next r) (hvalid : RowValid c r.sessionId r) :
    RowValid c r.sessionId (r.moved now p revision next) where
  recorded u hu := by
    rw [moved_runtimeUid] at hu
    cases huid : r.runtimeUid with
    | some v =>
        rw [huid] at hu
        exact hvalid.recorded u (huid.trans hu)
    | none =>
        rw [huid, Option.none_or] at hu
        rcases h.runtimeUid huid with hnone | ⟨-, -, pod, hpod, hp, hid, hgeneration, -⟩
        · rw [hnone] at hu
          cases hu
        · rw [hp] at hu
          exact ⟨pod, hpod, Option.some.inj hu, hid, hgeneration⟩
  pending hstate := absurd hstate h.started
  unrecorded hending hnone := by
    rw [moved_runtimeUid, Option.or_eq_none_iff] at hnone
    rcases moved_ending hending with hnext | hnext
    · exact h.terminating hnext hnone.1
    · exact h.terminated hnext
  ended hstate := h.terminated hstate

end

theorem transition_world {next : Observed} (hnext : p.nextState = some next.text) (hvalid : w.Valid)
    (h : transitionShellSession C t p w.shell = .ok (db', r'))
    (hmoves : ∀ r, w.session r.sessionId = some r → p.fence.sessionId = some r.sessionId →
      transitionRefused t.start r p ≠ some true →
      validTransition (some r.observedState.text) p.nextState = some true →
      Moves w.cluster p next r) :
    World.Valid ⟨db', w.cluster⟩ ∧ w.Later ⟨db', w.cluster⟩ := by
  have hexec : (Call.transitionShellSession p).exec C t w.shell = .ok db' :=
    fst_map_eq_ok.mpr ⟨r', h⟩
  refine shell_step hvalid fun k => ?_
  rcases (call_step hexec).sessions.lookup k with hsame | ⟨x, y, hx, hy, hchange⟩ |
    ⟨q, x, hcreate, -⟩
  · exact .inl hsame
  · have hlater := hchange.later
    cases hchange with
    | @moved _ _ revision goal named authority admitted valid wanted registered bound found =>
        obtain rfl : goal = next := by
          rw [hnext, Option.bind_some, Observed.ofText_text] at found
          exact (Option.some.inj found).symm
        obtain rfl : k = x.sessionId := Option.some.inj (lookup_mem hx).2
        have hgood := hmoves x hx named admitted (moved_from admitted valid found)
        exact .inr (.inl ⟨x, _, hx, hy, hgood.onward hlater, hgood.valid (hvalid _ x hx)⟩)
    | disabled switch => cases switch
  · cases hcreate

theorem reproject_world (C : ShellCrypto) {p : ReprojectArgs} (hvalid : w.Valid)
    (h : reprojectShellRuntime t p w.shell = .ok (db', r')) :
    World.Valid ⟨db', w.cluster⟩ ∧ w.Later ⟨db', w.cluster⟩ := by
  have hexec : (Call.reprojectShellRuntime p).exec C t w.shell = .ok db' :=
    fst_map_eq_ok.mpr ⟨r', h⟩
  refine shell_step hvalid fun k => ?_
  rcases (call_step hexec).sessions.lookup k with hsame | ⟨x, y, hx, hy, hchange⟩ |
    ⟨q, x, hcreate, -⟩
  · exact .inl hsame
  · have hlater := hchange.later
    cases hchange with
    | reprojected named admitted =>
        have hnot : ¬ x.Ending := by
          have hstate := any_ne_true admitted
            (some (decide (x.observedState ∉ [Observed.provisioning, .ready, .failed]))) (by simp)
          rintro (hending | hending) <;> rw [hending] at hstate <;> exact hstate (by decide)
        have hrow : RowValid w.cluster k (x.reprojected t.start) := {
          recorded := fun u hu => by cases hu
          pending := fun _ => rfl
          unrecorded := fun hending => by rcases hending with h | h <;> cases h
          ended := fun hended => by cases hended }
        have honward : Onward w.cluster.created x (x.reprojected t.start) := {
          later := hlater
          ending := fun hending => absurd hending hnot
          recorded := fun u hu => by cases hu }
        exact .inr (.inl ⟨x, _, hx, hy, honward, hrow⟩)
    | disabled switch => cases switch
  · cases hcreate

/-! ## Steps of the cluster -/

theorem keep_world (hvalid : w.Valid) (p : Pod → Bool) :
    World.Valid ⟨w.shell, w.cluster.keep p⟩ ∧ w.Later ⟨w.shell, w.cluster.keep p⟩ := by
  refine ⟨fun k r hr => ?_, fun k r hr => ⟨r, hr, .refl _ r⟩, fun _ hp => hp,
    fun _ _ _ _ _ hq _ => List.mem_of_mem_filter hq⟩
  have hrow := hvalid k r hr
  exact ⟨hrow.recorded, hrow.pending,
    fun hending hnone q hq => hrow.unrecorded hending hnone q (List.mem_of_mem_filter hq),
    fun hended q hq => hrow.ended hended q (List.mem_of_mem_filter hq)⟩

theorem create_world {spec : PodSpec} {uid : Uuid} {version : String} {c : Cluster}
    (hvalid : w.Valid) (h : w.cluster.create spec uid version = .ok (c, pod))
    (hgoes : ∀ r, w.session spec.sessionId = some r → ¬ r.Ending) :
    World.Valid ⟨w.shell, c⟩ ∧ w.Later ⟨w.shell, c⟩ ∧ pod ∈ c.created ∧ pod.toPodSpec = spec := by
  unfold Cluster.create at h
  split at h
  next =>
    split at h
    next =>
      cases h
      refine ⟨fun k r hr => ?_, ⟨fun k r hr => ⟨r, hr, .refl _ r⟩,
        fun p hp => List.mem_cons_of_mem _ hp, fun k r hr hending p hp hk => ?_⟩,
        List.mem_cons_self .., rfl⟩
      · have hrow := hvalid k r hr
        have hother : r.Ending → spec.sessionId ≠ k := by
          rintro hending rfl
          exact hgoes r hr hending
        refine ⟨fun u hu => ?_, hrow.pending, fun hending hnone p hp => ?_, fun hended p hp => ?_⟩
        · obtain ⟨p, hp, hrest⟩ := hrow.recorded u hu
          exact ⟨p, List.mem_cons_of_mem _ hp, hrest⟩
        · rcases List.mem_cons.mp hp with rfl | hp
          · exact hother hending
          · exact hrow.unrecorded hending hnone p hp
        · rcases List.mem_cons.mp hp with rfl | hp
          · exact hother (.inr hended)
          · exact hrow.ended hended p hp
      · rcases List.mem_cons.mp hp with rfl | hp
        · subst hk
          exact absurd hending (hgoes r hr)
        · exact hp
    next => cases h
  next => cases h

/-! ## Where a request does no harm -/

/-- A Pod that a worker may delete after its claim was superseded: one of an earlier
generation than the row is in, or, where the worker has seen the row Pending, one of an
earlier claim than its own. -/
def Outdated (row r : ShellSession) (pod : Pod) : Prop :=
  pod.generation < r.generation ∨
    row.observedState = .pending ∧ pod.fencingEpoch < row.fencingEpoch

/-- A request that does no harm, of a call of `reconcile` with `row`.  A Pod is created while
its session is not ending.  A session without a Pod on record starts to end when it has no
Pod.  A worker whose claim was superseded deletes an outdated Pod. -/
def Sound (row : ShellSession) (q : Request) (w : World) : Prop :=
  match q with
  | .createPod spec => ∀ r, w.session spec.sessionId = some r → ¬ r.Ending
  | .transitionShellSession p => p.nextState = some Observed.terminating.text →
      ∀ r, p.fence.sessionId = some r.sessionId → w.session r.sessionId = some r →
        r.runtimeUid = none → ∀ pod ∈ w.cluster.pods, pod.sessionId ≠ r.sessionId
  | .deletePod name uid => ∀ r pod, w.session row.sessionId = some r →
      row.fencingEpoch < r.fencingEpoch → w.cluster.find name = some pod → pod.uid.text = uid →
      Outdated row r pod
  | _ => True

/-- What the calls of `reconcile` agree on. -/
def sharing (row : ShellSession) : Discipline Stamp Request World where
  valid := World.Valid
  rely := World.Later
  guarantee := World.Later
  allowed _ q w := Sound row q w

/-! ## Requests -/

variable {tag : ShellSession}

theorem safe_request (q : Request) {post : Except Thrown q.Result → World → Prop}
    (h : ∀ e w', w'.Valid → w.Later w' → Sound tag q w' →
      (serve C e q w').2.Valid ∧ w'.Later (serve C e q w').2 ∧
        post (serve C e q w').1 (serve C e q w').2)
    (hlost : ∀ w', w.Later w' → post (.error .unanswered) w') :
    Safe (answer C) (sharing tag) post (request q) w := by
  refine System.safe_await.mpr fun e w' hvalid hlater hsound => ?_
  obtain ⟨hvalid', hlater', hpost⟩ := h e w' hvalid hlater hsound
  unfold answer
  cases e.fault with
  | none => exact ⟨hvalid', hlater', hpost⟩
  | before => exact ⟨hvalid, .refl w', hlost w' hlater⟩
  | after => exact ⟨hvalid', hlater', hlost _ (hlater.trans hlater')⟩

theorem safe_read (q : Request) (hserve : ∀ e w, (serve C e q w).2 = w) :
    Safe (answer C) (sharing tag) (fun _ w' => w.Later w') (request q) w := by
  refine safe_request q (fun e w' hvalid hlater _ => ?_) fun _ hlater => hlater
  rw [hserve e w']
  exact ⟨hvalid, .refl w', hlater⟩

theorem safe_commit (q : Request) (call : Clock → Shell → Except SqlError (Shell × q.Result))
    {post : Except Thrown q.Result → World → Prop}
    (hserve : ∀ e w, serve C e q w = w.commit (call e.clock w.shell))
    (hcall : ∀ t w' db' x, w'.Valid → w.Later w' → Sound tag q w' →
      call t w'.shell = .ok (db', x) →
      World.Valid ⟨db', w'.cluster⟩ ∧ w'.Later ⟨db', w'.cluster⟩ ∧ post (.ok x) ⟨db', w'.cluster⟩)
    (herror : ∀ e w', post (.error e) w') :
    Safe (answer C) (sharing tag) post (request q) w := by
  refine safe_request q (fun e w' hvalid hlater hsound => ?_) fun w' _ => herror _ w'
  rw [hserve e w']
  cases hok : call e.clock w'.shell with
  | error x => exact ⟨hvalid, .refl w', herror _ w'⟩
  | ok out => exact hcall e.clock w' out.1 out.2 hvalid hlater hsound hok

theorem currentPermissionRevision_safe {actorId : Uuid} {expected : Option String} :
    Safe (answer C) (sharing tag) (fun _ w' => w.Later w')
      (currentPermissionRevision actorId expected) w := by
  have hread : Safe (answer C) (sharing tag) (fun _ w' => w.Later w')
      (request (.currentShellPermissionRevision actorId)) w :=
    safe_read (.currentShellPermissionRevision actorId) fun _ _ => rfl
  refine hread.bind (fun revision w' hlater => ?_) fun _ _ hlater => hlater
  split
  · exact System.safe_throw.mpr hlater
  · split
    · exact System.safe_throw.mpr hlater
    · exact System.safe_pure.mpr hlater

structure Sends (i : TransitionInput) (p : TransitionArgs) : Prop where
  fence : p.fence = ⟨some i.sessionId, some (Js.trim i.worker), some i.generation,
    some i.fencingEpoch⟩
  expectedState : p.expectedState = some i.expectedState.text
  nextState : p.nextState = some i.nextState.text
  runtimeUid : optional i.runtimeUid "runtimeUid" = .ok p.runtimeUid

theorem args_sends {revision : String} (h : i.args revision = .ok p) : Sends i p := by
  simp only [TransitionInput.args, bind_eq_ok, pure_eq_ok] at h
  obtain ⟨fence, hfence, uid, huid, _, -, rfl⟩ := h
  obtain ⟨rfl, -⟩ := Base.fence_eq_ok.mp hfence
  exact ⟨rfl, rfl, rfl, huid⟩

structure Finds (i : TransitionInput) (r : ShellSession) : Prop where
  sessionId : r.sessionId = i.sessionId
  generation : r.generation = i.generation
  fencingEpoch : r.fencingEpoch = i.fencingEpoch
  observedState : r.observedState = i.expectedState
  valid : validTransition (some i.expectedState.text) (some i.nextState.text) = some true

theorem Observed.text_injective {x y : Observed} (h : x.text = y.text) : x = y := by
  have hx := Observed.ofText_text x
  rw [h, Observed.ofText_text] at hx
  exact (Option.some.inj hx).symm

theorem Sends.finds (h : Sends i p) (hnamed : p.fence.sessionId = some r.sessionId)
    (hadmitted : transitionRefused t.start r p ≠ some true)
    (hvalid : validTransition (some r.observedState.text) p.nextState = some true) :
    Finds i r := by
  have hpassed := any_ne_true hadmitted
  have hid : p.fence.sessionId = some i.sessionId := by rw [h.fence]
  have hgeneration : p.fence.generation = some i.generation := by rw [h.fence]
  have hepoch : p.fence.fencingEpoch = some i.fencingEpoch := by rw [h.fence]
  have hstate : r.observedState = i.expectedState := Observed.text_injective
    (ne_passed (hpassed (ne (some r.observedState.text) p.expectedState) (by simp)) rfl
      h.expectedState)
  refine ⟨Option.some.inj (hnamed.symm.trans hid), ?_, ?_, hstate, ?_⟩
  · exact ne_passed (hpassed (ne (some r.generation) p.fence.generation) (by simp [fenceLost])) rfl
      hgeneration
  · exact ne_passed (hpassed (ne (some r.fencingEpoch) p.fence.fencingEpoch) (by simp [fenceLost]))
      rfl hepoch
  · rw [← hstate, ← h.nextState]
    exact hvalid

structure Returns (i : TransitionInput) (r' : ShellSession) : Prop where
  sessionId : r'.sessionId = i.sessionId
  generation : r'.generation = i.generation
  observedState : r'.observedState = i.nextState

theorem transitionSession_safe {post : Except Thrown ShellSession → World → Prop}
    (hmoves : ∀ w' p r, w'.Valid → w.Later w' → Sound tag (.transitionShellSession p) w' →
      Sends i p → Finds i r → w'.session i.sessionId = some r → Moves w'.cluster p i.nextState r)
    (hpost : ∀ r' w', w'.Valid → w.Later w' → Returns i r' → w'.session r'.sessionId = some r' →
      post (.ok r') w')
    (herror : ∀ e w', post (.error e) w') :
    Safe (answer C) (sharing tag) post (transitionSession i) w := by
  refine currentPermissionRevision_safe.bind (fun revision w₁ hlater₁ => ?_) fun e w' _ => herror e w'
  cases hargs : i.args revision with
  | error e => exact System.safe_throw.mpr (herror e w₁)
  | ok p =>
      have hsends := args_sends hargs
      rw [System.lift_ok_bind]
      refine safe_commit (.transitionShellSession p) (transitionShellSession C · p) (fun _ _ => rfl)
        (fun t w₂ db' r' hvalid hlater₂ hsound hcall => ?_) herror
      have hlater := hlater₁.trans hlater₂
      obtain ⟨hvalid', hlater'⟩ := transition_world hsends.nextState hvalid hcall
        fun r hr hnamed hadmitted hvalidr => by
          have hfinds := hsends.finds hnamed hadmitted hvalidr
          exact hmoves w₂ p r hvalid hlater hsound hsends hfinds (hfinds.sessionId ▸ hr)
      refine ⟨hvalid', hlater', hpost r' _ hvalid' (hlater.trans hlater') ?_
        (transition_returns hcall)⟩
      obtain ⟨r, _, _, _, _, hr', -, hchange, -⟩ := transition_eq_ok hcall
      rw [← hr'] at hchange
      clear hr'
      cases hchange with
      | moved named authority admitted valid wanted registered bound goal =>
          have hfinds := hsends.finds named admitted (moved_from admitted valid goal)
          rw [hsends.nextState, Option.bind_some, Observed.ofText_text] at goal
          exact ⟨hfinds.sessionId, hfinds.generation, (Option.some.inj goal).symm⟩
      | disabled switch => cases switch

theorem Finds.runtimeUid (hfinds : Finds i r)
    (hsends : Sends i p) (hsnapshot : Snapshot row w) (hr : w.session i.sessionId = some r)
    (hid : i.sessionId = row.sessionId) (hgeneration : i.generation = row.generation)
    (hsame : i.runtimeUid = row.runtimeUid) (hnone : r.runtimeUid = none) :
    p.runtimeUid = none := by
  obtain ⟨x, hx, honward⟩ := hsnapshot.session
  rw [← hid] at hx
  obtain rfl : x = r := Option.some.inj (hx.symm.trans hr)
  have hrow : row.runtimeUid = none := by
    by_contra hsome
    have hkept := honward.later.runtimeUid hsome (hfinds.generation.trans hgeneration)
    exact hsome (hkept.symm.trans hnone)
  have hsent := hsends.runtimeUid
  rw [hsame, hrow] at hsent
  exact (Except.ok.inj hsent).symm

theorem delete_cases (c : Cluster) (name uid : String) :
    (c.delete name uid = .error (.kubernetes 404) ∧ ∀ p ∈ c.pods, p.name ≠ name) ∨
      c.delete name uid = .error (.kubernetes 409) ∨
      c.delete name uid = .ok (c.keep fun q => decide (q.name ≠ name)) := by
  unfold Cluster.delete
  cases hfind : c.find name with
  | none =>
      refine .inl ⟨rfl, fun p hp hname => ?_⟩
      have hno := List.find?_eq_none.mp hfind p hp
      simp [hname] at hno
  | some pod =>
      by_cases huid : pod.uid.text = uid
      · exact .inr (.inr (if_pos huid))
      · exact .inr (.inl (if_neg huid))

theorem deletePod_safe {name uid : String} :
    Safe (answer C) (sharing tag) (fun r w' => w.Later w' ∧
        (r = .ok () → ∀ p ∈ w'.cluster.pods, p.name ≠ name)) (deletePod name uid) w := by
  have hcall : Safe (answer C) (sharing tag) (fun r w' => w.Later w' ∧
      (r = .ok () ∨ (∃ e, r = .error e ∧ e.status = some 404) →
        ∀ p ∈ w'.cluster.pods, p.name ≠ name)) (request (.deletePod name uid)) w := by
    refine safe_request (.deletePod name uid) (fun e w' hvalid hlater _ => ?_) fun w' hlater =>
      ⟨hlater, fun h => ?_⟩
    · rcases delete_cases w'.cluster name uid with ⟨hdelete, hnone⟩ | hdelete | hdelete
      · rw [serve, hdelete]
        exact ⟨hvalid, .refl w', hlater, fun _ => hnone⟩
      · rw [serve, hdelete]
        refine ⟨hvalid, .refl w', hlater, fun h => ?_⟩
        rcases h with h | ⟨x, h, hstatus⟩
        · cases h
        · cases h
          cases hstatus
      · obtain ⟨hvalid', hlater'⟩ := keep_world hvalid fun q => decide (q.name ≠ name)
        rw [serve, hdelete]
        refine ⟨hvalid', hlater', hlater.trans hlater', fun _ p hp => ?_⟩
        exact of_decide_eq_true (List.mem_filter.mp hp).2
    · rcases h with h | ⟨x, h, hstatus⟩
      · cases h
      · cases h
        cases hstatus
  refine hcall.tryCatch (fun _ w' h => ⟨h.1, fun _ => h.2 (.inl rfl)⟩) fun e w' h => ?_
  split
  next hstatus => exact System.safe_pure.mpr ⟨h.1, fun _ => h.2 (.inr ⟨e, rfl, hstatus⟩)⟩
  next => exact System.safe_throw.mpr ⟨h.1, fun hok => by cases hok⟩

def Pod.For (pod : Pod) (row : ShellSession) : Prop :=
  pod.toPodSpec = ⟨row.sessionId, row.generation, row.fencingEpoch⟩

theorem createRuntimePod_safe :
    Safe (answer C) (sharing tag) (fun r w' => w.Later w' ∧
        ∀ pod, r = .ok pod → pod ∈ w'.cluster.created ∧ pod.For row)
      (createRuntimePod config row) w := by
  unfold createRuntimePod
  cases hbuild : buildRuntimePod config row with
  | error e => exact System.safe_throw.mpr ⟨.refl w, fun pod hpod => by cases hpod⟩
  | ok spec =>
      have hspec : spec = ⟨row.sessionId, row.generation, row.fencingEpoch⟩ := by
        unfold buildRuntimePod at hbuild
        split at hbuild
        · cases hbuild
        · exact (Except.ok.inj hbuild).symm
      rw [System.lift_ok_bind]
      refine safe_request (.createPod spec) (fun e w' hvalid hlater hsound => ?_) fun w' hlater =>
        ⟨hlater, fun pod hpod => by cases hpod⟩
      cases hcreate : w'.cluster.create spec e.uid e.resourceVersion with
      | error x =>
          rw [serve, hcreate]
          exact ⟨hvalid, .refl w', hlater, fun pod hpod => by cases hpod⟩
      | ok out =>
          obtain ⟨c, pod⟩ := out
          rw [serve, hcreate]
          obtain ⟨hvalid', hlater', hpod, hlabels⟩ := create_world hvalid hcreate hsound
          refine ⟨hvalid', hlater', hlater.trans hlater', fun p hp => ?_⟩
          cases hp
          exact ⟨hpod, hlabels.trans hspec⟩

theorem projectPod_safe :
    Safe (answer C) (sharing tag) (fun r w' => w.Later w' ∧
        ∀ pod, r = .ok pod → pod ∈ w'.cluster.created ∧ pod.For row)
      (projectPod config row) w := by
  refine createRuntimePod_safe.tryCatch (fun pod w' h => h) fun e w₁ hfailed => ?_
  have hlater₁ := hfailed.1
  split
  next => exact System.safe_throw.mpr ⟨hlater₁, fun pod hpod => by cases hpod⟩
  next =>
    have hread : Safe (answer C) (sharing tag) (fun _ w' => w₁.Later w')
        (request (.getPod (shellPodName row.sessionId))) w₁ :=
      safe_read (.getPod (shellPodName row.sessionId)) fun _ _ => rfl
    refine hread.bind (fun stale w₂ hlater₂ => ?_) fun _ w₂ hlater₂ =>
      ⟨hlater₁.trans hlater₂, fun pod hpod => by cases hpod⟩
    split
    next =>
      exact System.safe_throw.mpr ⟨hlater₁.trans hlater₂, fun pod hpod => by cases hpod⟩
    next =>
      refine deletePod_safe.bind (fun _ w₃ hdeleted => ?_) fun _ w₃ hdeleted =>
        ⟨(hlater₁.trans hlater₂).trans hdeleted.1, fun pod hpod => by cases hpod⟩
      have hlater₃ := (hlater₁.trans hlater₂).trans hdeleted.1
      exact createRuntimePod_safe.imp fun r w' h => ⟨hlater₃.trans h.1, h.2⟩

/-! ## Calls of `reconcile` -/

structure Base.For (b : Base) (row : ShellSession) : Prop where
  sessionId : b.sessionId = row.sessionId
  generation : b.generation = row.generation

theorem Base.of_for (config : Config) (row : ShellSession) : (Base.of config row).For row :=
  ⟨rfl, rfl⟩

theorem Snapshot.checked (h : Snapshot row w) {uid : String} (huid : row.runtimeUid = some uid) :
    uid ≠ "" := by
  obtain ⟨w₀, -, hrow, -⟩ := h
  exact (row_checked hrow).2.2 uid huid

theorem Snapshot.pending (h : Snapshot row w) (hstate : row.observedState = .pending) :
    row.runtimeUid = none := by
  obtain ⟨w₀, hvalid, hrow, -⟩ := h
  exact (hvalid _ _ hrow).pending hstate

theorem deleteRuntime_safe (hsnapshot : Snapshot row w) :
    Safe (answer C) (sharing tag) (fun x w' => w.Later w' ∧
        (x = .ok () → row.runtimeUid ≠ none → ∀ p ∈ w'.cluster.pods, p.sessionId ≠ row.sessionId))
      (deleteRuntime row) w := by
  unfold deleteRuntime
  cases huid : row.runtimeUid with
  | none => exact System.safe_pure.mpr ⟨.refl w, fun _ hsome => absurd rfl hsome⟩
  | some uid =>
      have hfilter : (some uid).filter (· ≠ "") = some uid := by simp [hsnapshot.checked huid]
      rw [hfilter]
      refine deletePod_safe.imp fun x w' h => ⟨h.1, fun hok _ p hp hid => h.2 hok p hp ?_⟩
      rw [PodSpec.name, hid]

theorem endingInput_uid {expected next : Observed} {code : String}
    (hb : b.For row) (hsnapshot : Snapshot row w)
    (hsends : Sends (endingInput b row expected next code) p)
    (hfinds : Finds (endingInput b row expected next code) r)
    (hr : w.session b.sessionId = some r) (hnone : r.runtimeUid = none) : p.runtimeUid = none :=
  hfinds.runtimeUid hsends hsnapshot hr hb.sessionId hb.generation rfl hnone

theorem closeRuntime_safe (hb : b.For row)
    (hsnapshot : Snapshot row w) (hstate : row.observedState = .terminating)
    (hpost : ∀ x w', post x w') :
    Safe (answer C) (sharing tag) post (closeRuntime b row) w := by
  refine (deleteRuntime_safe hsnapshot).bind (fun _ w₁ hdeleted => ?_) fun _ _ _ => hpost _ _
  obtain ⟨hlater₁, hgone⟩ := hdeleted
  have hmove : Safe (answer C) (sharing tag) (fun _ _ => True)
      (transitionSession (endingInput b row .terminating .terminated "RuntimeDeleted")) w₁ := by
    refine transitionSession_safe (fun w' p r hvalid hlater hsound hsends hfinds hr => ?_)
      (fun _ _ _ _ _ _ => trivial) fun _ _ => trivial
    have hsnapshot₁ := hsnapshot.later hlater₁
    have hsnapshot' := hsnapshot₁.later hlater
    have hid : r.sessionId = row.sessionId := hfinds.sessionId.trans hb.sessionId
    have hr' : w'.session row.sessionId = some r := hb.sessionId ▸ hr
    have hending : r.Ending := .inl hfinds.observedState
    refine ⟨fun _ => rfl, by simp [endingInput], fun hnone =>
      .inl (endingInput_uid hb hsnapshot' hsends hfinds hr hnone), fun h => absurd h (by simp [endingInput]),
      fun _ pod hpod => ?_⟩
    rw [hid]
    obtain ⟨x, hx, honward⟩ := hsnapshot'.session
    obtain rfl : x = r := Option.some.inj (hx.symm.trans hr')
    by_cases huid : row.runtimeUid = none
    · -- nothing was recorded when the session started to end, and nothing is since
      have hnone := (honward.ending (.inl hstate)).2.trans huid
      exact (hvalid _ _ hr').unrecorded hending hnone pod hpod
    · intro hlabel
      obtain ⟨y, hy, honward₁⟩ := hsnapshot₁.session
      have hold := hlater.pods _ y hy (honward₁.ending (.inl hstate)).1 pod hpod hlabel
      exact hgone rfl huid pod hold hlabel
  exact hmove.bind (fun _ _ _ => System.safe_pure.mpr (hpost _ _)) fun _ _ _ => hpost _ _

theorem not_terminated_of_valid {next : Observed} (h : next ≠ .terminated)
    (hvalid : validTransition (some r.observedState.text) (some next.text) = some true) :
    r.observedState ≠ .terminated := by
  intro hstate
  rw [hstate] at hvalid
  cases next <;> first | exact h rfl | exact absurd hvalid (by decide)

theorem teardownRuntime_safe (hb : b.For row)
    (hsnapshot : Snapshot row w) (hpost : ∀ x w', post x w') :
    Safe (answer C) (sharing tag) post (teardownRuntime b row) w := by
  have hstarts : Safe (answer C) (sharing tag) (fun x w' => ∀ row', x = .ok row' → b.For row' ∧
      Snapshot row' w' ∧ row'.observedState = .terminating)
      (if row.observedState ≠ .terminating then
        transitionSession (endingInput b row row.observedState .terminating "TeardownReconciled")
      else pure row) w := by
    split
    next hstate =>
      refine transitionSession_safe (fun w' p r hvalid hlater hsound hsends hfinds hr => ?_)
        (fun r' w' hvalid hlater hreturns hstored row' hrow' => ?_) fun _ _ row' hrow' => by cases hrow'
      · have hfound : r.observedState = row.observedState := hfinds.observedState
        have hnot : ¬ r.Ending := by
          rintro (hending | hending)
          · exact hstate (hfound.symm.trans hending)
          · have hvalid' := hfinds.valid
            rw [← hfinds.observedState] at hvalid'
            exact not_terminated_of_valid (by simp [endingInput]) hvalid' hending
        have hid : r.sessionId = b.sessionId := hfinds.sessionId
        refine ⟨fun h => absurd h hnot, by simp [endingInput], fun hnone => .inl
          (endingInput_uid hb (hsnapshot.later hlater) hsends hfinds hr hnone), fun _ hnone => ?_,
          fun h => absurd h (by simp [endingInput])⟩
        have hnamed : p.fence.sessionId = some r.sessionId := by
          rw [hsends.fence, hid]
          rfl
        exact hsound hsends.nextState r hnamed (hid ▸ hr) hnone
      · cases hrow'
        refine ⟨⟨hreturns.sessionId.symm, hreturns.generation.symm⟩, .of_row hvalid hstored,
          hreturns.observedState⟩
    next hstate =>
      refine System.safe_pure.mpr fun row' hrow' => ?_
      cases hrow'
      exact ⟨hb, hsnapshot, not_not.mp hstate⟩
  refine hstarts.bind (fun row' w₁ h => ?_) fun _ _ _ => hpost _ _
  obtain ⟨hb', hsnapshot', hstate'⟩ := h row' rfl
  exact closeRuntime_safe hb' hsnapshot' hstate' hpost

theorem provisionRuntime_safe
    (hb : b.For row)
    (hepoch : b.fencingEpoch = row.fencingEpoch) (hpost : ∀ x w', post x w') :
    Safe (answer C) (sharing tag) post (provisionRuntime config b row) w := by
  refine projectPod_safe.bind (fun pod w₁ hpod => ?_) fun _ _ _ => hpost _ _
  obtain ⟨-, hpod⟩ := hpod
  obtain ⟨hcreated, hlabels⟩ := hpod pod rfl
  have hmove : Safe (answer C) (sharing tag) (fun _ _ => True) (transitionSession {
      toBase := b
      expectedState := .pending
      nextState := .provisioning
      runtimeUid := some pod.uid.text
      runtimeResourceVersion := some pod.resourceVersion
      reasonCode := "RuntimePodCreated" }) w₁ := by
    refine transitionSession_safe (fun w' p r _ hlater _ hsends hfinds hr => ?_)
      (fun _ _ _ _ _ _ => trivial) fun _ _ => trivial
    have hnot : ¬ r.Ending := by
      rintro (hending | hending) <;> cases hfinds.observedState.symm.trans hending
    have hid : pod.sessionId = row.sessionId := congrArg PodSpec.sessionId hlabels
    have hgeneration : pod.generation = row.generation := congrArg PodSpec.generation hlabels
    have hlabel : pod.fencingEpoch = row.fencingEpoch := congrArg PodSpec.fencingEpoch hlabels
    have hsent : p.runtimeUid = some pod.uid.text := by
      have hne : pod.uid.text ≠ "" := by
        intro hblank
        have hfilter := pod.uid.filter_text
        rw [hblank] at hfilter
        have hlength := congrArg List.length hfilter
        rw [Uuid.length_hex] at hlength
        exact absurd hlength (by decide)
      rw [((optional_eq_ok hne).mp hsends.runtimeUid).1, Js.trim_uuid]
    refine ⟨fun h => absurd h hnot, by simp, fun _ => .inr ⟨by simp, by simp, pod,
      hlater.created pod hcreated, hsent, ?_, ?_, ?_⟩, fun h => absurd h (by simp),
      fun h => absurd h (by simp)⟩
    · rw [hid, hfinds.sessionId, hb.sessionId]
    · rw [hgeneration, hfinds.generation, hb.generation]
    · rw [hlabel, hfinds.fencingEpoch, hepoch]
  exact hmove.bind (fun _ _ _ => System.safe_pure.mpr (hpost _ _)) fun _ _ _ => hpost _ _

theorem readyRuntime_safe (hb : b.For row)
    (hsnapshot : Snapshot row w) (hpost : ∀ x w', post x w') :
    Safe (answer C) (sharing tag) post (readyRuntime b row) w := by
  have hmove : Safe (answer C) (sharing tag) (fun _ _ => True) (transitionSession {
      toBase := b
      expectedState := .provisioning
      nextState := .ready
      runtimeUid := row.runtimeUid
      runtimeResourceVersion := row.runtimeResourceVersion
      reasonCode := "RuntimeRegistered" }) w := by
    refine transitionSession_safe (fun w' p r _ hlater _ hsends hfinds hr => ?_)
      (fun _ _ _ _ _ _ => trivial) fun _ _ => trivial
    have hnot : ¬ r.Ending := by
      rintro (hending | hending) <;> cases hfinds.observedState.symm.trans hending
    exact ⟨fun h => absurd h hnot, by simp, fun hnone => .inl (hfinds.runtimeUid hsends
      (hsnapshot.later hlater) hr hb.sessionId hb.generation rfl hnone), fun h => absurd h (by simp),
      fun h => absurd h (by simp)⟩
  exact hmove.bind (fun _ _ _ => System.safe_pure.mpr (hpost _ _)) fun _ _ _ => hpost _ _

theorem reprojectStaleRuntime_safe :
    Safe (answer C) (sharing tag) (fun x w' => ∀ row', x = .ok row' → Snapshot row' w')
      (reprojectStaleRuntime config row) w := by
  have hdelete : Safe (answer C) (sharing tag) (fun _ _ => True) (System.Program.tryCatch (do
      let pod : Pod ← request (.getPod (shellPodName row.sessionId))
      if some pod.uid.text ≠ row.runtimeUid ∨ pod.sessionId ≠ row.sessionId then
        .throw (.error "stale runtime Pod UID cannot be safely deleted")
      else deletePod (shellPodName row.sessionId) pod.uid.text)
    fun e => if e.status = some 404 then pure () else .throw e) w := by
    have hread : Safe (answer C) (sharing tag) (fun _ w' => w.Later w')
        (request (.getPod (shellPodName row.sessionId))) w :=
      safe_read (.getPod (shellPodName row.sessionId)) fun _ _ => rfl
    have htry : ∀ (pod : Pod) w₁, Safe (answer C) (sharing tag) (fun _ _ => True)
        (if some pod.uid.text ≠ row.runtimeUid ∨ pod.sessionId ≠ row.sessionId then
          .throw (.error "stale runtime Pod UID cannot be safely deleted")
        else deletePod (shellPodName row.sessionId) pod.uid.text) w₁ := by
      intro pod w₁
      split
      · exact System.safe_throw.mpr trivial
      · exact deletePod_safe.imp fun _ _ _ => trivial
    have hboth := hread.bind (fun pod w₁ _ => htry pod w₁) fun _ _ _ => trivial
    refine hboth.tryCatch (fun _ _ _ => trivial) fun e w' _ => ?_
    split
    · exact System.safe_pure.mpr trivial
    · exact System.safe_throw.mpr trivial
  refine hdelete.bind (fun _ w₁ _ => ?_) fun _ _ _ row' hrow' => by cases hrow'
  unfold reprojectRuntime
  cases hfence : (Base.of config row).fence with
  | error e => exact System.safe_throw.mpr fun row' hrow' => by cases hrow'
  | ok fence =>
      cases huid : optional row.runtimeUid "expectedRuntimeUid" with
      | error e => exact System.safe_throw.mpr fun row' hrow' => by cases hrow'
      | ok uid =>
          rw [System.lift_ok_bind, System.lift_ok_bind]
          refine safe_commit (.reprojectShellRuntime _) (fun t => reprojectShellRuntime t _)
            (fun _ _ => rfl) (fun t w' db' r' hvalid _ _ hcall => ?_) fun _ _ row' hrow' => by
              cases hrow'
          obtain ⟨hvalid', hlater'⟩ := reproject_world C hvalid hcall
          refine ⟨hvalid', hlater', fun row' hrow' => ?_⟩
          cases hrow'
          exact .of_row hvalid' (reproject_returns hcall)

theorem revokeSessionAuthority_safe {code : String} :
    Safe (answer C) (sharing tag) (fun x w' => ∀ row', x = .ok row' → Snapshot row' w' ∧
        b.For row' ∧ b.fencingEpoch = row'.fencingEpoch) (revokeSessionAuthority b code) w := by
  unfold revokeSessionAuthority
  cases hfence : b.fence with
  | error e => exact System.safe_throw.mpr fun row' hrow' => by cases hrow'
  | ok fence =>
      obtain ⟨rfl, -⟩ := Base.fence_eq_ok.mp hfence
      rw [System.lift_ok_bind]
      refine safe_commit (.revokeShellSessionAuthority _ _)
        (fun t => revokeShellSessionAuthority C t _ _) (fun _ _ => rfl)
        (fun t w' db' r' hvalid _ _ hcall => ?_) fun _ _ row' hrow' => by cases hrow'
      have hexec : (Call.revokeShellSessionAuthority _ _).exec C t w'.shell = .ok db' :=
        fst_map_eq_ok.mpr ⟨r', hcall⟩
      obtain ⟨hvalid', hlater'⟩ := call_world rfl hvalid hexec
      refine ⟨hvalid', hlater', fun row' hrow' => ?_⟩
      cases hrow'
      refine ⟨.of_row hvalid' (revoke_returns hcall), ?_⟩
      simp only [revokeShellSessionAuthority, bind_eq_ok, orRaise_eq_ok, pure_eq_ok] at hcall
      obtain ⟨r, hlook, _, hpassed, revision, -, _, -, _, -, _, -, heq⟩ := hcall
      cases heq
      have hid := (lookup_mem hlook).2
      have hpassed := any_ne_true (raiseIf_eq_ok.mp hpassed)
      have hgeneration := ne_passed (hpassed (ne (some r.generation) (some b.generation))
        (by simp [fenceLost])) rfl rfl
      have hepoch := ne_passed (hpassed (ne (some r.fencingEpoch) (some b.fencingEpoch))
        (by simp [fenceLost])) rfl rfl
      exact ⟨⟨Option.some.inj hid, hgeneration.symm⟩, hepoch.symm⟩

theorem safe_clock {α : Type} {post : Except Thrown α → World → Prop} {f : Timestamp → Routine α}
    (h : ∀ now w', w.Later w' → Safe (answer C) (sharing tag) post (f now) w')
    (herror : ∀ e w', w.Later w' → post (.error e) w') :
    Safe (answer C) (sharing tag) post (request .now >>= f) w := by
  have hread : Safe (answer C) (sharing tag) (fun _ w' => w.Later w') (request .now) w :=
    safe_read .now fun _ _ => rfl
  exact hread.bind h herror

theorem expiredLocally_safe :
    Safe (answer C) (sharing tag) (fun _ w' => w.Later w') (expiredLocally config row) w := by
  refine safe_clock (fun now w₁ hlater₁ => ?_) fun _ _ hlater => hlater
  split
  · exact System.safe_pure.mpr hlater₁
  · exact safe_clock (fun _ _ hlater₂ => System.safe_pure.mpr (hlater₁.trans hlater₂))
      fun _ _ hlater₂ => hlater₁.trans hlater₂

/-- What a call of `reconcile` hands on. -/
def HandsOn (x : Except Thrown (Option ShellSession)) (w : World) : Prop :=
  ∀ row, x = .ok (some row) → Snapshot row w

theorem handsOn_none (w : World) : HandsOn (.ok none) w := fun _ h => by cases h

theorem handsOn_error (e : Thrown) (w : World) : HandsOn (.error e) w := fun _ h => by cases h

theorem HandsOn.later {x : Except Thrown (Option ShellSession)} (h : HandsOn x w)
    (hlater : w.Later w') : HandsOn x w' := fun row hrow => (h row hrow).later hlater

theorem handsOn_last {p : Routine Unit}
    (h : Safe (answer C) (sharing tag) (fun _ _ => True) p w) :
    Safe (answer C) (sharing tag) HandsOn (p >>= fun _ => pure none) w :=
  h.bind (fun _ w' _ => System.safe_pure.mpr (handsOn_none w')) fun e w' _ => handsOn_error e w'

theorem handsOn_row {p : Routine ShellSession}
    (h : Safe (answer C) (sharing tag) (fun x w' => ∀ row', x = .ok row' → Snapshot row' w') p w) :
    Safe (answer C) (sharing tag) HandsOn (p >>= fun row => pure (some row)) w := by
  refine h.bind (fun row w' hrow => System.safe_pure.mpr fun row' hrow' => ?_)
    fun e w' _ => handsOn_error e w'
  cases hrow'
  exact hrow row rfl

theorem reconcile_safe (hsnapshot : Snapshot row w) :
    Safe (answer C) (sharing tag) HandsOn (reconcile config row reclaimed) w := by
  have hexpired : Safe (answer C) (sharing tag) (fun _ w' => w.Later w')
      (if row.desiredState = .running then expiredLocally config row else pure false) w := by
    split
    · exact expiredLocally_safe
    · exact System.safe_pure.mpr (.refl w)
  refine hexpired.bind (fun expired w₁ hlater => ?_) fun e w' _ => handsOn_error e w'
  have hrow : Safe (answer C) (sharing tag) (fun x w' => ∀ row', x = .ok row' →
      Snapshot row' w' ∧ (Base.of config row).For row' ∧
        (Base.of config row).fencingEpoch = row'.fencingEpoch)
      (if expired then revokeSessionAuthority (Base.of config row) "SessionExpired" else pure row)
      w₁ := by
    split
    · exact revokeSessionAuthority_safe
    · refine System.safe_pure.mpr fun row' hrow' => ?_
      cases hrow'
      exact ⟨hsnapshot.later hlater, Base.of_for config row, rfl⟩
  refine hrow.bind (fun row' w₂ h => ?_) fun e w' _ => handsOn_error e w'
  obtain ⟨hsnapshot', hb, hepoch⟩ := h row' rfl
  split
  · exact handsOn_last (teardownRuntime_safe hb hsnapshot' fun _ _ => trivial)
  split
  · exact handsOn_row reprojectStaleRuntime_safe
  split
  · exact handsOn_last (provisionRuntime_safe hb hepoch fun _ _ => trivial)
  split
  · exact handsOn_last (readyRuntime_safe hb hsnapshot' fun _ _ => trivial)
  split
  · have hstalled : Safe (answer C) (sharing tag) (fun _ _ => True) (projectionStalled config row')
        w₂ := safe_clock (fun _ _ _ => System.safe_pure.mpr trivial) fun _ _ _ => trivial
    refine hstalled.bind (fun stalled w₃ _ => ?_) fun e w' _ => handsOn_error e w'
    split
    · exact handsOn_row reprojectStaleRuntime_safe
    · exact System.safe_pure.mpr (handsOn_none w₃)
  · exact System.safe_pure.mpr (handsOn_none w₂)

/-! ## Runs -/

variable {s : Fleet} {th : Thread}

/-- A call of `reconcile` that is under way and keeps to the discipline. -/
def Thread.Valid (C : ShellCrypto) (w : World) (th : Thread) : Prop :=
  Snapshot th.row w ∧ Safe (answer C) (sharing th.row) HandsOn th.rest w

theorem Thread.Valid.later (h : th.Valid C w) (hlater : w.Later w') : th.Valid C w' :=
  ⟨h.1.later hlater, h.2.later World.Later.trans (fun _ _ _ hlater hx => hx.later hlater) hlater⟩

theorem Thread.start_valid (h : Snapshot row w) :
    (Thread.start config reclaimed row).Valid C w :=
  ⟨h, reconcile_safe h⟩

structure Fleet.Valid (C : ShellCrypto) (s : Fleet) : Prop where
  world : s.world.Valid
  threads : ∀ th ∈ s.threads, th.Valid C s.world

/-- A move that does no harm: the request it answers, if it answers one, does none. -/
def Move.Sound (m : Move) (s : Fleet) : Prop :=
  ∀ i e th q next, m = .step i e → s.threads[i]? = some th → th.rest = .ask q next →
    ConsoleShell.Sound th.row q s.world

/-- A new world leaves the calls under way as they are, and new calls start with rows it
holds. -/
theorem Fleet.Valid.spawn {rows : List ShellSession}
    (h : s.Valid C) (hvalid : World.Valid ⟨db, s.world.cluster⟩)
    (hlater : s.world.Later ⟨db, s.world.cluster⟩)
    (hrows : ∀ row ∈ rows, db.sessions.lookup (some row.sessionId) = some row) :
    (s.spawn config reclaimed db rows).Valid C := by
  refine ⟨hvalid, fun th hth => ?_⟩
  rcases List.mem_append.mp hth with hth | hth
  · exact (h.threads th hth).later hlater
  · obtain ⟨row, hrow, rfl⟩ := List.mem_map.mp hth
    exact Thread.start_valid (.of_row hvalid (hrows row hrow))

theorem Thread.next_valid (hvalid : w.Valid) (h : th.Valid C w)
    (hsound : ∀ q next, th.rest = .ask q next → Sound th.row q w) :
    (th.next C e w).1.Valid ∧ w.Later (th.next C e w).1 ∧
      ∀ th' ∈ (th.next C e w).2, th'.Valid C (th.next C e w).1 := by
  obtain ⟨hsnapshot, hsafe⟩ := h
  unfold Thread.next
  cases hrest : th.rest with
  | pure x =>
      rw [hrest] at hsafe
      have hx : HandsOn (.ok x) w := System.safe_pure.mp hsafe
      cases x with
      | none => exact ⟨hvalid, .refl w, fun th' hth' => by cases hth'⟩
      | some row =>
          refine ⟨hvalid, .refl w, fun th' hth' => ?_⟩
          cases hth'
          exact Thread.start_valid (hx row rfl)
  | throw e => exact ⟨hvalid, .refl w, fun th' hth' => by cases hth'⟩
  | ask q next =>
      rw [hrest] at hsafe
      obtain ⟨hvalid', hlater, hnext⟩ :=
        System.safe_ask.mp hsafe e w hvalid (.refl w) (hsound q next hrest)
      refine ⟨hvalid', hlater, fun th' hth' => ?_⟩
      cases hth'
      exact ⟨hsnapshot.later hlater, hnext⟩

theorem perform_valid {m : Move} (h : s.Valid C) (hm : m.Sound s) : (s.perform C m).Valid C := by
  cases m with
  | act a =>
      by_cases ha : a.outside = true
      · rw [Fleet.perform, if_pos ha]
        obtain ⟨hvalid, hlater⟩ := perform_world ha h.world
        exact ⟨hvalid, fun th hth => (h.threads th hth).later hlater⟩
      · rw [Fleet.perform, if_neg ha]
        exact h
  | claim config t locked =>
      rw [Fleet.perform]
      cases hclaim : claimSessions config t locked s.world.shell with
      | error e => exact h
      | ok out =>
          obtain ⟨db, rows⟩ := out
          have hcall := claimSessions_call hclaim
          have hexec : (Call.claimShellSessions (some (Js.trim config.worker)) (some 5) locked).exec
              C t s.world.shell = .ok db := fst_map_eq_ok.mpr ⟨rows, hcall⟩
          obtain ⟨hvalid, hlater⟩ := call_world rfl h.world hexec
          refine h.spawn hvalid hlater fun row hrow => ?_
          obtain ⟨-, -, hlookup, -⟩ := claim_epoch hcall row hrow
          exact hlookup
  | inspect config t f =>
      refine h.spawn h.world (.refl _) fun row hrow => ?_
      have hmem := List.mem_of_find?_eq_some (Option.mem_toList.mp hrow)
      exact Table.lookup_eq_some.mpr ⟨hmem, rfl⟩
  | revoke config t f =>
      rw [Fleet.perform]
      cases hcall : revokeShellSessionAuthority C t f (some "PermissionRevisionChanged")
        s.world.shell with
      | error e => exact h
      | ok out =>
          obtain ⟨db, row⟩ := out
          have hexec : (Call.revokeShellSessionAuthority f (some "PermissionRevisionChanged")).exec C
              t s.world.shell = .ok db := fst_map_eq_ok.mpr ⟨row, hcall⟩
          obtain ⟨hvalid, hlater⟩ := call_world rfl h.world hexec
          refine h.spawn hvalid hlater fun row' hrow' => ?_
          rw [List.mem_singleton.mp hrow']
          exact revoke_returns hcall
  | step i e =>
      rw [Fleet.perform]
      cases hth : s.threads[i]? with
      | none => exact h
      | some th =>
          have hmem := List.mem_of_getElem? hth
          obtain ⟨hvalid, hlater, hnext⟩ := Thread.next_valid (e := e) h.world (h.threads th hmem)
            fun q next hrest => hm i e th q next rfl hth hrest
          refine ⟨hvalid, fun th' hth' => ?_⟩
          dsimp only at hth'
          cases hgoes : (th.next C e s.world).2 with
          | none =>
              rw [hgoes] at hth'
              exact (h.threads th' (List.mem_of_mem_eraseIdx hth')).later hlater
          | some x =>
              rw [hgoes] at hth'
              rcases List.mem_or_eq_of_mem_set hth' with hold | rfl
              · exact (h.threads th' hold).later hlater
              · exact hnext _ hgoes
  | crash i => exact ⟨h.world, fun th hth => h.threads th (List.mem_of_mem_eraseIdx hth)⟩
  | vanish name =>
      obtain ⟨hvalid, hlater⟩ := keep_world h.world fun p => decide (p.name ≠ name)
      exact ⟨hvalid, fun th hth => (h.threads th hth).later hlater⟩

theorem installed_valid (site : ConsoleIdentity.Site) (changedAt : Timestamp)
    (migration : AppliedMigration) :
    (Fleet.installed (.installed site changedAt migration)).Valid C :=
  ⟨fun _ _ hr => (nomatch hr), fun _ hth => (nomatch hth)⟩

theorem Cluster.eq_of_name (c : Cluster) {p q : Pod} (hp : p ∈ c.pods) (hq : q ∈ c.pods)
    (h : p.name = q.name) : p = q := by
  have hsymm : Std.Symm fun p q : Pod => p.name ≠ q.name := ⟨fun _ _ hne => hne.symm⟩
  by_contra hne
  exact c.names.forall hp hq hne h

theorem Cluster.eq_of_uid (c : Cluster) {p q : Pod} (hp : p ∈ c.created) (hq : q ∈ c.created)
    (h : p.uid.text = q.uid.text) : p = q := by
  have hsymm : Std.Symm fun p q : Pod => p.uid ≠ q.uid := ⟨fun _ _ hne => hne.symm⟩
  by_contra hne
  exact c.uids.forall hp hq hne (Uuid.text_injective h)

theorem answer_pods {q : Request} (hpod : pod ∈ w.cluster.pods) :
    pod ∈ (answer C e q w).2.cluster.pods ∨
      ∃ name uid, q = .deletePod name uid ∧ w.cluster.find name = some pod ∧ pod.uid.text = uid := by
  have hserve : pod ∈ (serve C e q w).2.cluster.pods ∨ ∃ name uid, q = .deletePod name uid ∧
      w.cluster.find name = some pod ∧ pod.uid.text = uid := by
    have hcommit : ∀ {α : Type} (x : Except SqlError (Shell × α)),
        (w.commit x).2.cluster = w.cluster := by
      intro α x
      cases x <;> rfl
    cases q with
    | createPod spec =>
        rw [serve]
        cases hcreate : w.cluster.create spec e.uid e.resourceVersion with
        | error x => exact .inl hpod
        | ok out =>
            obtain ⟨c, p⟩ := out
            unfold Cluster.create at hcreate
            split at hcreate
            next =>
              split at hcreate
              next =>
                cases hcreate
                exact .inl (List.mem_cons_of_mem _ hpod)
              next => cases hcreate
            next => cases hcreate
    | deletePod name uid =>
        cases hfind : w.cluster.find name with
        | none =>
            rw [serve, Cluster.delete, hfind]
            exact .inl hpod
        | some p =>
            by_cases huid : p.uid.text = uid
            · have hdelete : w.cluster.delete name uid =
                  .ok (w.cluster.keep fun q => decide (q.name ≠ name)) := by
                rw [Cluster.delete, hfind]
                exact if_pos huid
              rw [serve, hdelete]
              by_cases hname : pod.name = name
              · -- a name is taken once
                have hp := List.mem_of_find?_eq_some hfind
                have hpname : p.name = name := by
                  have hfound := List.find?_some hfind
                  exact of_decide_eq_true hfound
                obtain rfl : p = pod := w.cluster.eq_of_name hp hpod (hpname.trans hname.symm)
                exact .inr ⟨name, uid, rfl, hfind, huid⟩
              · exact .inl (List.mem_filter.mpr ⟨hpod, decide_eq_true hname⟩)
            · have hdelete : w.cluster.delete name uid = .error (.kubernetes 409) := by
                rw [Cluster.delete, hfind]
                exact if_neg huid
              rw [serve, hdelete]
              exact .inl hpod
    | transitionShellSession p | revokeShellSessionAuthority f code | reprojectShellRuntime p =>
        exact .inl (by rw [serve, hcommit]; exact hpod)
    | _ => exact .inl hpod
  unfold answer
  cases e.fault with
  | none => exact hserve
  | before => exact .inl hpod
  | after => exact hserve

theorem Outdated.unrecorded (hvalid : w.Valid) (hsnapshot : Snapshot row w)
    (hr : w.session row.sessionId = some r) (hpod : pod ∈ w.cluster.pods)
    (h : Outdated row r pod) : r.runtimeUid ≠ some pod.uid.text := by
  intro huid
  have hsame : ∀ p ∈ w.cluster.created, p.uid.text = pod.uid.text → p = pod := fun p hp htext =>
    w.cluster.eq_of_uid hp (w.cluster.known pod hpod) htext
  rcases h with hgeneration | ⟨hpending, hepoch⟩
  · obtain ⟨p, hp, htext, -, hcurrent⟩ := (hvalid _ _ hr).recorded _ huid
    rw [← hcurrent, hsame p hp htext] at hgeneration
    exact lt_irrefl _ hgeneration
  · obtain ⟨x, hx, honward⟩ := hsnapshot.session
    obtain rfl : x = r := Option.some.inj (hx.symm.trans hr)
    rcases honward.recorded _ huid with hrow | ⟨p, hp, htext, hlate⟩
    · rw [hsnapshot.pending hpending] at hrow
      cases hrow
    · rw [hsame p hp htext] at hlate
      exact absurd hepoch (not_lt.mpr hlate)

/-- A worker whose claim was superseded leaves the Pod on record alone. -/
theorem step_pods {i : Nat} (h : s.Valid C)
    (hm : (Move.step i e).Sound s) (hth : s.threads[i]? = some th)
    (hr : s.world.session th.row.sessionId = some r)
    (hsuperseded : th.row.fencingEpoch < r.fencingEpoch) (hpod : pod ∈ s.world.cluster.pods)
    (huid : r.runtimeUid = some pod.uid.text) :
    pod ∈ (s.perform C (.step i e)).world.cluster.pods := by
  have hvalid := h.threads th (List.mem_of_getElem? hth)
  rw [Fleet.perform, hth]
  show pod ∈ (th.next C e s.world).1.cluster.pods
  unfold Thread.next
  cases hrest : th.rest with
  | pure x => cases x <;> exact hpod
  | throw x => exact hpod
  | ask q next =>
      rcases answer_pods (C := C) (e := e) (q := q) hpod with hkept | ⟨name, uid, rfl, hfind, htext⟩
      · exact hkept
      · have hsound := hm i e th _ next rfl hth hrest r pod hr hsuperseded hfind htext
        exact absurd huid (hsound.unrecorded h.world hvalid.1 hr hpod)

/-- No orphan and no stolen Pod, in every run in which no request does harm: a session that is
Terminated has no Pod, and no step of a worker whose claim was superseded deletes the Pod that
the row of its session records. -/
theorem no_orphan_no_theft (C : ShellCrypto) (site : ConsoleIdentity.Site) (changedAt : Timestamp)
    (migration : AppliedMigration) (ms : List Move)
    (hms : System.Along (Fleet.perform C) Move.Sound ms
      (.installed (.installed site changedAt migration))) (n : Nat) :
    (∀ k r, (System.run (Fleet.perform C) (ms.take n)
        (.installed (.installed site changedAt migration))).world.session k = some r →
      r.observedState = .terminated →
      ∀ pod ∈ (System.run (Fleet.perform C) (ms.take n)
        (.installed (.installed site changedAt migration))).world.cluster.pods,
      pod.sessionId ≠ k) ∧
    ∀ i e th r pod s, System.Taken (Fleet.perform C)
        (.installed (.installed site changedAt migration)) ms n (.step i e) s →
      s.threads[i]? = some th → s.world.session th.row.sessionId = some r →
      th.row.fencingEpoch < r.fencingEpoch → pod ∈ s.world.cluster.pods →
      r.runtimeUid = some pod.uid.text →
      pod ∈ (s.perform C (.step i e)).world.cluster.pods := by
  have hprefix : System.Along (Fleet.perform C) Move.Sound (ms.take n)
      (.installed (.installed site changedAt migration)) := by
    rw [← List.take_append_drop n ms, System.Along.append] at hms
    exact hms.1
  have hvalid := hprefix.invariant (I := Fleet.Valid C) (fun m s hs hm => perform_valid hs hm)
    (installed_valid site changedAt migration)
  refine ⟨fun k r hr hterminated => (hvalid.world k r hr).ended hterminated,
    fun i e th r pod s htaken hth hr hsuperseded hpod huid => ?_⟩
  have hm := hms.get htaken.step
  rw [htaken.before] at hm hvalid
  exact step_pods hvalid hm hth hr hsuperseded hpod huid

/-! ## Harmful requests -/

instance ShellSession.Ending.decidable (r : ShellSession) : Decidable r.Ending :=
  inferInstanceAs (Decidable (_ ∨ _))

instance Outdated.decidable (row r : ShellSession) (pod : Pod) : Decidable (Outdated row r pod) :=
  inferInstanceAs (Decidable (_ ∨ _))

/-- `Sound`, by looking up the one row and the Pods a request is about. -/
def soundTest (row : ShellSession) (w : World) : Request → Bool
  | .createPod spec => (w.session spec.sessionId).all fun r => decide ¬ r.Ending
  | .transitionShellSession p => decide (p.nextState ≠ some Observed.terminating.text) ||
      (p.fence.sessionId.bind w.session).all fun r => decide (r.runtimeUid ≠ none) ||
        w.cluster.pods.all fun pod => decide (pod.sessionId ≠ r.sessionId)
  | .deletePod name uid => (w.session row.sessionId).all fun r =>
      decide (r.fencingEpoch ≤ row.fencingEpoch) || (w.cluster.find name).all fun pod =>
        decide (pod.uid.text ≠ uid) || decide (Outdated row r pod)
  | _ => true

theorem sound_of_test {q : Request} (h : soundTest row w q = true) : Sound row q w := by
  cases q with
  | createPod spec =>
      intro r hr
      exact of_decide_eq_true (Option.all_eq_true _ _ |>.mp h r hr)
  | transitionShellSession p =>
      intro hnext r hnamed hr hnone pod hpod
      rw [soundTest, Bool.or_eq_true, decide_eq_true_eq] at h
      rcases h with h | h
      · exact absurd hnext h
      · have hrow := Option.all_eq_true _ _ |>.mp h r (by rw [hnamed, Option.bind_some, hr])
        rw [Bool.or_eq_true, decide_eq_true_eq] at hrow
        rcases hrow with hsome | hall
        · exact absurd hnone hsome
        · exact of_decide_eq_true (List.all_eq_true.mp hall pod hpod)
  | deletePod name uid =>
      intro r pod hr hsuperseded hfind huid
      have hrow := Option.all_eq_true _ _ |>.mp h r hr
      rw [Bool.or_eq_true, decide_eq_true_eq] at hrow
      rcases hrow with hcurrent | hall
      · exact absurd hsuperseded (not_lt.mpr hcurrent)
      · have hpod := Option.all_eq_true _ _ |>.mp hall pod hfind
        rw [Bool.or_eq_true, decide_eq_true_eq, decide_eq_true_eq] at hpod
        rcases hpod with hne | houtdated
        · exact absurd huid hne
        · exact houtdated
  | _ => trivial

/-- `Move.Sound`, by looking at the request. -/
def Move.test (s : Fleet) : Move → Bool
  | .step i _ => s.threads[i]?.all fun th =>
      match th.rest with
      | .ask q _ => soundTest th.row s.world q
      | _ => true
  | _ => true

theorem Move.sound_of_test {m : Move} (h : m.test s = true) : m.Sound s := by
  rintro i e th q next rfl hth hrest
  rw [Move.test, hth, Option.all_some, hrest] at h
  exact ConsoleShell.sound_of_test h

def soundRun (C : ShellCrypto) : List Move → Fleet → Bool
  | [], _ => true
  | m :: ms, s => m.test s && soundRun C ms (s.perform C m)

theorem along_of_soundRun {ms : List Move} (h : soundRun C ms s = true) :
    System.Along (Fleet.perform C) Move.Sound ms s := by
  induction ms generalizing s with
  | nil => trivial
  | cons m ms ih =>
      rw [soundRun, Bool.and_eq_true] at h
      exact ⟨Move.sound_of_test h.1, ih h.2⟩

namespace Demo

def idle : Fleet := .installed (.installed ConsoleIdentity.Demo.loggedIn Authority.Demo.noon migration)

/-- So many answers to the call at a place. -/
def steps (i k n : Nat) : List Move := List.replicate n (.step i (stamp k))

/-- Session 9 is created and claimed, and its call looks at the clock twice. -/
def opened : List Move :=
  [.act setup, .act (create 4 9), .claim reconciler (clock 5) []] ++ steps 0 6 2

/-- The session is ended and claimed again. -/
def closed : List Move :=
  (teardown revision).map .act ++ [.claim reconciler (clock 21) []]

/-- The session gets its Pod, and loses it when it ends. -/
def served : List Move := opened ++ steps 0 6 4 ++ closed ++ steps 0 22 6

/-- The process ends between the creation of the Pod and the transition that records it. -/
def forgotten : List Move := opened ++ steps 0 6 1 ++ [.crash 0] ++ closed ++ steps 0 22 6

/-- Another process claims the session and gives it its Pod. -/
def overtaken : List Move :=
  opened ++ [.claim reconciler (clock 21) []] ++ steps 1 22 5 ++ steps 0 23 2

def moved (ms : List Move) : Fleet := System.run (Fleet.perform crypto) ms idle

theorem moved_setup (ms : List Move) :
    moved (.act setup :: ms) = System.run (Fleet.perform crypto) ms (.installed enabled) := by
  rw [← setup_eq crypto, moved, System.run]
  rfl

end Demo

/-- A session that gets its Pod and ends has no Pod then. -/
theorem demo_served :
    ∃ r, (Demo.moved Demo.served).world.session ⟨9⟩ = some r ∧ r.observedState = .terminated ∧
      r.runtimeUid = some (Uuid.text ⟨6⟩) ∧
      ∀ pod ∈ (Demo.moved Demo.served).world.cluster.pods, pod.sessionId ≠ ⟨9⟩ := by
  have hserved : soundRun Demo.crypto Demo.served Demo.idle = true ∧
      (((Demo.moved Demo.served).world.session ⟨9⟩).any fun r =>
        decide (r.observedState = .terminated) && decide (r.runtimeUid = some (Uuid.text ⟨6⟩))) =
      true := by
    rw [Demo.idle, ConsoleIdentity.Demo.loggedIn_eq,
      show Demo.moved Demo.served = _ from Demo.moved_setup Demo.served.tail]
    decide +kernel
  obtain ⟨hsound, hended⟩ := hserved
  obtain ⟨r, hr, htest⟩ := (Option.any_eq_true _ _).mp hended
  rw [Bool.and_eq_true, decide_eq_true_eq, decide_eq_true_eq] at htest
  obtain ⟨hrun, -⟩ := no_orphan_no_theft Demo.crypto ConsoleIdentity.Demo.loggedIn
    Authority.Demo.noon Demo.migration Demo.served (along_of_soundRun hsound) Demo.served.length
  rw [List.take_length] at hrun
  refine ⟨r, hr, htest.1, htest.2, ?_⟩
  unfold Demo.moved Demo.idle at hr ⊢
  exact hrun ⟨9⟩ r hr htest.1

/-- A process ends between the creation of a Pod and the transition that records it, and the
session ends with its Pod left.  And a worker whose claim was superseded finds the Pod of the
next claim in its way, and deletes it. -/
theorem pod_orphaned_pod_stolen :
    (∃ r, (Demo.moved Demo.forgotten).world.session ⟨9⟩ = some r ∧
      r.observedState = .terminated ∧
      ∃ pod ∈ (Demo.moved Demo.forgotten).world.cluster.pods, pod.sessionId = ⟨9⟩) ∧
    ∃ th r, (Demo.moved Demo.overtaken).threads[0]? = some th ∧
      (Demo.moved Demo.overtaken).world.session th.row.sessionId = some r ∧
      th.row.fencingEpoch < r.fencingEpoch ∧
      ∃ pod ∈ (Demo.moved Demo.overtaken).world.cluster.pods, r.runtimeUid = some pod.uid.text ∧
        pod ∉ ((Demo.moved Demo.overtaken).perform Demo.crypto
          (.step 0 (Demo.stamp 24))).world.cluster.pods := by
  constructor
  · have hrun : (((Demo.moved Demo.forgotten).world.session ⟨9⟩).any fun r =>
        decide (r.observedState = .terminated) &&
        (Demo.moved Demo.forgotten).world.cluster.pods.any fun pod =>
          decide (pod.sessionId = ⟨9⟩)) = true := by
      rw [show Demo.moved Demo.forgotten = _ from Demo.moved_setup Demo.forgotten.tail]
      decide +kernel
    obtain ⟨r, hr, htest⟩ := (Option.any_eq_true _ _).mp hrun
    rw [Bool.and_eq_true, decide_eq_true_eq, List.any_eq_true] at htest
    obtain ⟨hstate, pod, hpod, hlabel⟩ := htest
    exact ⟨r, hr, hstate, pod, hpod, of_decide_eq_true hlabel⟩
  · have hrun : ((Demo.moved Demo.overtaken).threads[0]?.any fun th =>
        ((Demo.moved Demo.overtaken).world.session th.row.sessionId).any fun r =>
          decide (th.row.fencingEpoch < r.fencingEpoch) &&
          (Demo.moved Demo.overtaken).world.cluster.pods.any fun pod =>
            decide (r.runtimeUid = some pod.uid.text) &&
            decide (pod ∉ ((Demo.moved Demo.overtaken).perform Demo.crypto
              (.step 0 (Demo.stamp 24))).world.cluster.pods)) = true := by
      rw [show Demo.moved Demo.overtaken = _ from Demo.moved_setup Demo.overtaken.tail]
      decide +kernel
    obtain ⟨th, hth, hrow⟩ := (Option.any_eq_true _ _).mp hrun
    obtain ⟨r, hr, htest⟩ := (Option.any_eq_true _ _).mp hrow
    rw [Bool.and_eq_true, decide_eq_true_eq, List.any_eq_true] at htest
    obtain ⟨hsuperseded, pod, hpod, hlost⟩ := htest
    rw [Bool.and_eq_true, decide_eq_true_eq, decide_eq_true_eq] at hlost
    exact ⟨th, r, hth, hr, hsuperseded, pod, hpod, hlost.1, hlost.2⟩

end ConsoleShell
