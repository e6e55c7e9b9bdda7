import OpenSphere.Durable.Requests
import OpenSphere.Properties.Stranded

/-!
# Final phases

A worker checks a change of phase against the phase that it has in hand, and stores it for an
operation that it still holds, whatever the phase is by then.  Before each step a heartbeat, which is
refused for an operation that has timed out, says that the phase is still the one in hand.

`contract` is what the workers count on meanwhile: nobody changes the phase of an operation that they
hold, save a claim that lets it expire.  `phases_final` says what follows if no claim does so between
the heartbeat of a step and the phase that it stores.
-/

open Sql
open System (Program Setting Pool Move Task Along Contract Watched watched_pure watched_throw watched_lift
  watched_await)

namespace Durable

variable {p : Phase} {q : Query} {c : Claimant} {w' : Ledger} {code token : String}
  {P : Phase → Prop} {w : Ledger} {os : List Operation} {id : Uuid}

/-! ## What a step does to a phase -/

def Ledger.Final (w w' : Ledger) : Prop :=
  ∀ id r, w.row id = some r → ∃ r', w'.row id = some r' ∧ (r.phase.final = true → r'.phase = r.phase)

theorem final_refl (w : Ledger) : w.Final w := fun _ r hr => ⟨r, hr, fun _ => rfl⟩

theorem Ledger.Final.trans {w'' : Ledger} (h : w.Final w') (h' : w'.Final w'') : w.Final w'' := by
  intro id r hr
  obtain ⟨r', hr', hsame⟩ := h id r hr
  obtain ⟨r'', hr'', hsame'⟩ := h' id r' hr'
  refine ⟨r'', hr'', fun hfinal => ?_⟩
  have hphase := hsame hfinal
  rw [hsame' (hphase ▸ hfinal), hphase]

def Ledger.Changes (w w' : Ledger) : Prop :=
  ∀ id r, w.row id = some r → ∃ r', w'.row id = some r' ∧ Change r.phase r'.phase

theorem Ledger.Changes.final (h : w.Changes w') : w.Final w' := by
  intro id r hr
  obtain ⟨r', hr', hchange⟩ := h id r hr
  exact ⟨r', hr', hchange.final⟩

/-- What a worker stores may be stored over the phases of the operation that it holds. -/
def Query.Storable (q : Query) (w : Ledger) : Prop :=
  ∀ id next d r, q.ask = .setPhase id next → phaseToDb next = some d → w.row id = some r →
    r.heldBy q.worker = true → Change r.phase d.1

theorem change_claim (h : p.claimable = true) : Change p p.claim := by
  cases p <;> cases h <;> first
    | exact .claimed
    | exact .taken
    | exact .same _

theorem answer_changes (hw : w.Distinct) (e : Turn) (hq : q.Storable w) :
    w.Changes (answer e q w).2 := by
  intro id r hr
  obtain ⟨r', hr', hstep⟩ := (answer_step hw e q).row hr
  refine ⟨r', hr', ?_⟩
  obtain ⟨-, rfl⟩ := mem_of_row hr
  generalize hwho : some q = who at hstep
  cases hstep with
  | same => exact .same _
  | released => cases hwho
  | expired c limit hphase hdue => exact .expired hphase
  | claimed c limit hphase => exact change_claim hphase
  | beat => exact .same _
  | intended => exact .same _
  | stored c next p v hp hheld =>
      cases hwho
      exact hq _ _ _ _ rfl hp hr hheld

theorem change_changes (hw : w.Distinct) (x : Nat × Outside) : w.Changes (change x w) := by
  intro id r hr
  obtain ⟨r', hr', hstep⟩ := (change_step hw x).row hr
  refine ⟨r', hr', ?_⟩
  generalize hwho : (none : Option Query) = who at hstep
  cases hstep with
  | same | beat => exact .same _
  | released nextAttemptAt h => exact h ▸ .released
  | expired | claimed | intended | stored => cases hwho

/-! ## What a worker counts on -/

/-- The request belongs to a step that stores another phase than TimedOut. -/
def Ask.storing (id : Uuid) : Ask → Bool
  | .appendStep id' _ phase _ _ => id' = id && phase ≠ .timedOut
  | .setPhase id' next => id' = id && next ≠ .timedOut
  | _ => false

/-- The operations that a worker holds stay as they are, unless they expire. -/
structure Query.Relies (q : Query) (w w' : Ledger) : Prop where
  rows : ∀ id r', w'.row id = some r' → r'.heldBy q.worker = true →
    ∃ r, w.row id = some r ∧ r.heldBy q.worker = true ∧
      (r'.phase = r.phase ∨ r.phase.expires = true ∧ r'.phase = .timedOut ∧ q.ask.storing id = false)
  final : w.Final w'

def contract : Contract Poll Turn Query Ledger where
  valid := Ledger.Sound
  later := Ledger.Final
  rely := Query.Relies
  needs t q w := q.worker = t.worker ∧ q.Storable w
  allowed _ _ _ _ := True

theorem relies_refl (q : Query) (w : Ledger) : q.Relies w w :=
  ⟨fun _ r hr hheld => ⟨r, hr, hheld, .inl rfl⟩, final_refl w⟩

theorem Query.Relies.trans {w'' : Ledger} (h : q.Relies w w') (h' : q.Relies w' w'') :
    q.Relies w w'' := by
  refine ⟨fun id r'' hr'' hheld'' => ?_, h.final.trans h'.final⟩
  obtain ⟨r', hr', hheld', hphase'⟩ := h'.rows id r'' hr'' hheld''
  obtain ⟨r, hr, hheld, hphase⟩ := h.rows id r' hr' hheld'
  refine ⟨r, hr, hheld, ?_⟩
  rcases hphase with hsame | ⟨hexpires, htimedOut, hstoring⟩
  · rw [← hsame]
    exact hphase'
  · refine .inr ⟨hexpires, ?_, hstoring⟩
    rcases hphase' with hsame' | ⟨hexpires', -, -⟩
    · exact hsame'.trans htimedOut
    · rw [htimedOut] at hexpires'
      cases hexpires'

theorem contract_kept : contract.Kept answer where
  refl := final_refl
  trans := Ledger.Final.trans
  rely_refl := relies_refl
  rely_trans := Query.Relies.trans
  rely_later h := h.final
  answer {_ e q _} hvalid hneeds _ :=
    ⟨(answer_step hvalid.distinct e q).sound hvalid, (answer_changes hvalid.distinct e hneeds.2).final⟩

/-! ## What a worker knows -/

/-- What is known of the phase of an operation, as long as the worker holds it. -/
def Knows (c : Claimant) (id : Uuid) (P : Phase → Prop) (w : Ledger) : Prop :=
  ∀ r, w.row id = some r → r.heldBy c = true → P r.phase

/-- The phase in hand, unless the operation has expired. -/
def Phase.Loose (p x : Phase) : Prop := x = p ∨ p.expires = true ∧ x = .timedOut

/-- The phase in hand, before another one is stored. -/
def Phase.Ready (p : Phase) (next : WorkerPhase) (x : Phase) : Prop :=
  x = p ∨ next = .timedOut ∧ x = .timedOut

theorem Knows.imp {P' : Phase → Prop} (h : Knows c id P w)
    (himp : ∀ x, P x → P' x) : Knows c id P' w :=
  fun r hr hheld => himp _ (h r hr hheld)

theorem Knows.relied (h : Knows q.worker id P w) (hrely : q.Relies w w')
    (hexpired : ∀ x, P x → x.expires = true → q.ask.storing id = false → P .timedOut) :
    Knows q.worker id P w' := by
  intro r' hr' hheld'
  obtain ⟨r, hr, hheld, hphase⟩ := hrely.rows id r' hr' hheld'
  have hP := h r hr hheld
  rcases hphase with hsame | ⟨hexpires, htimedOut, hstoring⟩
  · rw [hsame]
    exact hP
  · rw [htimedOut]
    exact hexpired _ hP hexpires hstoring

theorem Knows.loose_relied
    (h : Knows q.worker id p.Loose w) (hrely : q.Relies w w') : Knows q.worker id p.Loose w' := by
  refine h.relied hrely fun x hx hexpires _ => ?_
  rcases hx with rfl | ⟨hexpires', -⟩
  · exact .inr ⟨hexpires, rfl⟩
  · exact .inr ⟨hexpires', rfl⟩

theorem Knows.untouched
    {who : Option Query} (h : Knows c id P w) (hw : w.Distinct) (hstep : Ledger.Step who w w')
    (hclaim : ∀ q limit, who = some q → q.ask ≠ .claim limit)
    (hstore : ∀ q next, who = some q → q.ask ≠ .setPhase id next) (hwho : who ≠ none) :
    Knows c id P w' := by
  intro r' hr' hheld'
  rcases hstep.before hw hr' with ⟨r, hr, hrow⟩ | hfresh
  · obtain ⟨-, rfl⟩ := mem_of_row hr
    cases hrow with
    | same => exact h _ hr hheld'
    | released => exact absurd rfl hwho
    | expired c limit | claimed c limit => exact absurd rfl (hclaim _ limit rfl)
    | beat | intended => exact h r hr hheld'
    | stored c next => exact absurd rfl (hstore _ next rfl)
  · exact absurd hfresh.claimOwner (heldBy_owner hheld')

theorem Knows.quiet (h : Knows c id P w) (hw : w.Distinct) (e : Turn) (hq : q.ask.quiet = true) :
    Knows c id P (answer e q w).2 := by
  refine h.untouched hw (answer_step hw e q) ?_ ?_ nofun
  · rintro _ limit ⟨⟩ hask
    rw [hask] at hq
    cases hq
  · rintro _ next ⟨⟩ hask
    rw [hask] at hq
    cases hq

/-- Who goes on with which operations knows the phases that it has in hand. -/
def Awaits (c : Claimant) (os : List Operation) (w : Ledger) : Prop :=
  ∀ o ∈ os, ∃ d, phaseToDb o.phase = some d ∧ Knows c o.operationId d.1.Loose w

structure At (c : Claimant) (o : Operation) (os : List Operation) (phase : WorkerPhase) (w : Ledger) :
    Prop where
  phase : ∃ d, phaseToDb phase = some d ∧ Knows c o.operationId d.1.Loose w
  rest : Awaits c os w

theorem Awaits.relied (h : Awaits q.worker os w) (hrely : q.Relies w w') : Awaits q.worker os w' := by
  intro o ho
  obtain ⟨d, hd, hknows⟩ := h o ho
  exact ⟨d, hd, hknows.loose_relied hrely⟩

theorem Awaits.quiet (h : Awaits c os w)
    (hw : w.Distinct) (e : Turn) (hq : q.ask.quiet = true) : Awaits c os (answer e q w).2 := by
  intro o ho
  obtain ⟨d, hd, hknows⟩ := h o ho
  exact ⟨d, hd, hknows.quiet hw e hq⟩

theorem At.relied {o : Operation} {phase : WorkerPhase}
    (h : At q.worker o os phase w) (hrely : q.Relies w w') : At q.worker o os phase w' := by
  obtain ⟨d, hd, hknows⟩ := h.phase
  exact ⟨⟨d, hd, hknows.loose_relied hrely⟩, h.rest.relied hrely⟩

theorem At.quiet {o : Operation} {phase : WorkerPhase}
    (h : At c o os phase w) (hw : w.Distinct) (e : Turn) (hq : q.ask.quiet = true) :
    At c o os phase (answer e q w).2 := by
  obtain ⟨d, hd, hknows⟩ := h.phase
  exact ⟨⟨d, hd, hknows.quiet hw e hq⟩, h.rest.quiet hw e hq⟩

/-! ## Steps of a worker -/

theorem storable_of_quiet (hq : q.ask.quiet = true) (w : Ledger) : q.Storable w := by
  rintro id next d r hask - - -
  rw [hask] at hq
  cases hq

section

variable {t : Poll} {o : Operation} {phase next : WorkerPhase}

/-- A request that stores no phase keeps what is known. -/
theorem at_knowing (q : Query) (hq : q.worker = t.worker ∧ q.ask.quiet = true) (u v : Ledger)
    (hvalid : contract.valid v) (hrely : contract.rely q u v) (hat : At t.worker o os phase u) :
    contract.needs t q v ∧ ∀ e, contract.allowed t e q v → At t.worker o os phase (answer e q v).2 := by
  refine ⟨⟨hq.1, storable_of_quiet hq.2 v⟩, fun e _ => ?_⟩
  rw [← hq.1] at hat ⊢
  exact (hat.relied hrely).quiet hvalid.distinct e hq.2

theorem minor_watched {α : Type} {post : α → Prop} {p : Run α} (h : p.Keeps (Query.Minor t.worker) post)
    (hat : At t.worker o os phase w) :
    Watched answer contract t (fun x w => post x ∧ At t.worker o os phase w) p w :=
  (h.imp (fun _ hq => ⟨hq.worker, hq.quiet⟩) fun _ hx => hx).watched_knowing at_knowing hat

theorem quiet_watched {a : Ask} (ha : a.quiet = true) (hat : At t.worker o os phase w) :
    Watched answer contract t (fun _ w => True ∧ At t.worker o os phase w) (request t.worker a) w :=
  Program.Keeps.watched_knowing (keeps_request ⟨rfl, ha⟩) at_knowing hat

theorem request_watched {a : Ask} {post : a.Answer → Ledger → Prop}
    (h : ∀ v, v.Sound → Query.Relies ⟨t.worker, a⟩ w v → Query.Storable ⟨t.worker, a⟩ v ∧
      ∀ e x, (answer e ⟨t.worker, a⟩ v).1 = .ok x → post x (answer e ⟨t.worker, a⟩ v).2) :
    Watched answer contract t post (request t.worker a) w :=
  watched_await (q := (⟨t.worker, a⟩ : Query)) fun v hvalid hrely => by
    obtain ⟨hstorable, hanswer⟩ := h v hvalid hrely
    exact ⟨⟨rfl, hstorable⟩, fun e _ x hx => hanswer e x hx⟩

/-- A heartbeat that is kept was that of an operation that had not timed out. -/
theorem knows_of_heartbeat {e : Turn} (hw : w.Distinct)
    (hknows : Knows c id p.Loose w) (hkept : (answer e ⟨c, .heartbeat id⟩ w).1 = .ok true) :
    Knows c id (· = p) w := by
  intro r hr hheld
  refine (hknows r hr hheld).resolve_right ?_
  rintro ⟨-, htimedOut⟩
  change (e.database (w.advance e.elapsed) (.ok ((w.advance e.elapsed).heartbeat c id).1,
    ((w.advance e.elapsed).heartbeat c id).2)).1 = .ok true at hkept
  unfold Turn.database at hkept
  split at hkept
  · obtain ⟨r', hr', hrow⟩ := List.any_eq_true.mp (Except.ok.inj hkept)
    simp only [Bool.and_eq_true, decide_eq_true_eq] at hrow
    obtain ⟨⟨rfl, -⟩, hheart⟩ := hrow
    obtain rfl := Option.some.inj ((row_of_mem hw hr').symm.trans hr)
    rw [htimedOut] at hheart
    cases hheart
  · cases hkept
  · cases hkept

/-- After the lease was shown the phase in hand is that of the operation. -/
theorem requireLease_watched {d : Phase × ExecutionState} (hd : phaseToDb phase = some d)
    (hat : At t.worker o os phase w) :
    Watched answer contract t
      (fun _ w => Knows t.worker o.operationId (· = d.1) w ∧ Awaits t.worker os w)
      (requireLease t.worker o) w := by
  unfold requireLease
  refine (quiet_watched (a := .leaseLost o.operationId) rfl hat).bind contract_kept fun lost w _ h => ?_
  replace hat := h.2
  split
  · exact watched_throw
  · refine Watched.bind contract_kept (m := fun kept w => kept = true →
      Knows t.worker o.operationId (· = d.1) w ∧ Awaits t.worker os w) ?_ fun kept w _ h => ?_
    · refine request_watched (a := .heartbeat o.operationId) fun v hv hrely =>
        ⟨storable_of_quiet rfl v, fun e kept hkept htrue => ?_⟩
      obtain rfl : kept = true := htrue
      have hat' : At t.worker o os phase v := hat.relied hrely
      obtain ⟨d', hd', hknows⟩ := hat'.phase
      obtain rfl := Option.some.inj (hd.symm.trans hd')
      exact ⟨(knows_of_heartbeat hv.distinct hknows hkept).quiet hv.distinct e rfl,
        hat'.rest.quiet hv.distinct e rfl⟩
    · cases kept with
      | true => exact watched_pure (h rfl)
      | false => exact watched_throw

theorem Awaits.stored (h : Awaits c os w) (hw : w.Distinct)
    (hout : o.operationId ∉ os.map Operation.operationId) (e : Turn) :
    Awaits c os (answer e ⟨c, .setPhase o.operationId next⟩ w).2 := by
  intro o' ho'
  obtain ⟨d, hd, hknows⟩ := h o' ho'
  refine ⟨d, hd, hknows.untouched hw (answer_step hw e _) ?_ ?_ nofun⟩
  · rintro _ limit ⟨⟩ hask
    cases hask
  · rintro _ next' ⟨⟩ hask
    injection hask with hid
    exact hout (hid ▸ List.mem_map_of_mem ho')

theorem knows_of_stored {e : Turn} (hstored : (answer e ⟨c, .setPhase id next⟩ w).1 = .ok ()) :
    ∃ d, phaseToDb next = some d ∧ Knows c id (· = d.1) (answer e ⟨c, .setPhase id next⟩ w).2 := by
  change (e.database (w.advance e.elapsed) ((w.advance e.elapsed).setPhase c id next)).1 = _ at hstored
  show ∃ d, _ ∧ Knows c id _ (e.database (w.advance e.elapsed) ((w.advance e.elapsed).setPhase c id next)).2
  unfold Turn.database Ledger.setPhase at hstored ⊢
  split at hstored
  · split at hstored
    · cases hstored
    next d hd =>
      refine ⟨d, hd, ?_⟩
      split at hstored
      next hheld =>
        simp only [if_pos hheld]
        intro r hr hclaim
        have hrow : (w.row id).map (Row.store c id next d) = some r :=
          (row_update (w := w.advance e.elapsed) (fun r => by unfold Row.store; split <;> rfl) id).symm.trans hr
        obtain ⟨r₀, hr₀, rfl⟩ := Option.map_eq_some_iff.mp hrow
        obtain ⟨-, rfl⟩ := mem_of_row hr₀
        unfold Row.store at hclaim ⊢
        split
        · rfl
        next hout =>
          rw [if_neg hout] at hclaim
          exact absurd (by simp [Row.claimed, hclaim]) hout
      · cases hstored
  · cases hstored
  · cases hstored

/-- What is known between the lease of a step and the phase that it stores. -/
structure Storing (c : Claimant) (o : Operation) (os : List Operation) (phase next : WorkerPhase)
    (w : Ledger) : Prop where
  edge : phase = next ∨ next ∈ phase.transitions
  phase : ∃ d, phaseToDb phase = some d ∧ Knows c o.operationId (d.1.Ready next) w
  rest : Awaits c os w

theorem Storing.relied (h : Storing q.worker o os phase next w)
    (hrely : q.Relies w w') (hstoring : q.ask.storing o.operationId = decide (next ≠ .timedOut)) :
    Storing q.worker o os phase next w' := by
  obtain ⟨d, hd, hknows⟩ := h.phase
  refine ⟨h.edge, ⟨d, hd, hknows.relied hrely fun x _ _ hout => ?_⟩, h.rest.relied hrely⟩
  rw [hstoring, decide_eq_false_iff_not, not_not] at hout
  exact .inr ⟨hout, rfl⟩

theorem Storing.storable (h : Storing c o os phase next w) :
    Query.Storable ⟨c, .setPhase o.operationId next⟩ w := by
  intro id next' d' r hask hd' hr hheld
  injection hask with hid hnext
  subst hid hnext
  obtain ⟨d, hd, hknows⟩ := h.phase
  rcases hknows r hr hheld with hsame | ⟨rfl, htimedOut⟩
  · rw [hsame]
    exact .of_transition h.edge (by rw [hd]; rfl) (by rw [hd']; rfl)
  · obtain rfl := Option.some.inj hd'
    rw [htimedOut]
    exact .same _

variable (hout : o.operationId ∉ os.map Operation.operationId)

include hout

theorem step_watched {type : StepType} {status : StepStatus}
    (hat : At t.worker o os phase w) :
    Watched answer contract t (fun p w => p = next ∧ At t.worker o os p w)
      (step t.worker o phase next type status code) w := by
  obtain ⟨d, hd, -⟩ := hat.phase
  unfold step
  refine (requireLease_watched hd hat).bind contract_kept fun _ w _ hlease => ?_
  refine Watched.bind contract_kept (m := fun p w => p = next ∧ Storing t.worker o os phase next w)
    (watched_lift fun p hp => ?_) fun p w _ h => ?_
  · obtain ⟨hnext, hedge⟩ := transitionPhase_eq_ok hp
    exact ⟨hnext, hedge, ⟨d, hd, hlease.1.imp fun x hx => .inl hx⟩, hlease.2⟩
  · obtain ⟨rfl, hstoring⟩ := h
    refine Watched.bind contract_kept (m := fun _ w => Storing t.worker o os phase p w)
      ?_ fun _ w _ hstoring => ?_
    · refine request_watched (a := .appendStep o.operationId type p status code) fun v hv hrely =>
        ⟨storable_of_quiet rfl v, fun e _ _ => ?_⟩
      have h := hstoring.relied hrely (by simp [Ask.storing])
      obtain ⟨d, hd, hknows⟩ := h.phase
      exact ⟨h.edge, ⟨d, hd, hknows.quiet hv.distinct e rfl⟩, h.rest.quiet hv.distinct e rfl⟩
    · refine Watched.bind contract_kept (m := fun _ w => At t.worker o os p w) ?_
        fun _ w _ hat => watched_pure ⟨rfl, hat⟩
      refine request_watched (a := .setPhase o.operationId p) fun v hv hrely => ?_
      have h := hstoring.relied hrely (by simp [Ask.storing])
      refine ⟨h.storable, fun e _ hstored => ?_⟩
      obtain ⟨d, hd, hknows⟩ := knows_of_stored hstored
      exact ⟨⟨d, hd, hknows.imp fun x hx => .inl hx⟩, h.rest.stored hv.distinct hout e⟩

theorem stepIf_watched {due : Bool} {type : StepType} {status : StepStatus}
    (hat : At t.worker o os phase w) :
    Watched answer contract t (fun p w => At t.worker o os p w)
      (stepIf t.worker o due phase next type status code) w := by
  unfold stepIf
  split
  · exact (step_watched hout hat).imp fun _ _ h => h.2
  · exact watched_pure hat

/-! ## Runs of a worker -/

theorem stopIfExpired_watched (hat : At t.worker o os phase w) :
    Watched answer contract t (fun x w => At t.worker o os (x.getD phase) w)
      (stopIfExpired t.worker o phase) w := by
  unfold stopIfExpired
  refine (quiet_watched (a := .now) rfl hat).bind contract_kept fun now w _ h => ?_
  split
  · exact (step_watched hout h.2).bind contract_kept fun p w _ h => watched_pure h.2
  · exact watched_pure h.2

theorem stopEarly_watched (hat : At t.worker o os phase w) :
    Watched answer contract t (fun x w => At t.worker o os (x.getD phase) w)
      (stopEarly t.worker o phase) w := by
  unfold stopEarly
  split
  · exact watched_pure hat
  · exact stopIfExpired_watched hout hat

theorem refuse_watched (hat : At t.worker o os phase w) :
    Watched answer contract t (fun _ w => Awaits t.worker os w)
      (refuse t.worker o phase next code) w := by
  unfold refuse
  split
  · refine (stepIf_watched hout hat).bind contract_kept fun p w _ hat => ?_
    exact (step_watched hout hat).bind contract_kept fun _ _ _ h => watched_pure h.2.rest
  · exact (step_watched hout hat).bind contract_kept fun _ _ _ h => watched_pure h.2.rest

theorem conclude_watched {receipt : Js.Value} {ownerCalled : Bool}
    (hat : At t.worker o os phase w) :
    Watched answer contract t (fun _ w => Awaits t.worker os w)
      (conclude t.worker o phase receipt token ownerCalled) w := by
  unfold conclude
  refine (minor_watched requireLease_minor hat).bind contract_kept fun _ w _ h => ?_
  refine (quiet_watched (a := .verify o.terms.verifierId o.terms.target receipt token) rfl h.2).bind
    contract_kept fun verdict w _ h => ?_
  cases verdict with
  | succeeded | failed | other =>
      exact (step_watched hout h.2).bind contract_kept fun _ _ _ h => watched_pure h.2.rest

theorem settle_watched {receipt : Option Js.Value} {ownerCalled : Bool}
    (hat : At t.worker o os phase w) :
    Watched answer contract t (fun _ w => Awaits t.worker os w)
      (settle t.worker o phase receipt token ownerCalled) w := by
  have hask : ∀ {p : WorkerPhase} {w : Ledger}, At t.worker o os p w →
      Watched answer contract t (fun _ w => True ∧ At t.worker o os p w)
        (request t.worker (.reconcile o.terms.ownerRoute o.terms.downstreamKey o.terms.target token)) w :=
    fun hat => quiet_watched rfl hat
  unfold settle
  dsimp only
  split
  · exact (step_watched hout hat).bind contract_kept fun _ _ _ h => conclude_watched hout h.2
  · split
    · refine (hask hat).bind contract_kept fun receipt w _ h => ?_
      cases receipt with
      | none => exact (step_watched hout h.2).bind contract_kept fun _ _ _ h => watched_pure h.2.rest
      | some receipt => exact conclude_watched hout h.2
    · refine (stepIf_watched hout hat).bind contract_kept fun p w _ hat => ?_
      refine (minor_watched requireLease_minor hat).bind contract_kept fun _ w _ h => ?_
      refine (hask h.2).bind contract_kept fun receipt w _ h => ?_
      cases receipt with
      | none => exact (step_watched hout h.2).bind contract_kept fun _ _ _ h => watched_pure h.2.rest
      | some receipt =>
          exact (step_watched hout h.2).bind contract_kept fun _ _ _ h => conclude_watched hout h.2

/-- What is known after the way to the owner. -/
def Reached (c : Claimant) (o : Operation) (os : List Operation)
    (x : Outcome ⊕ (WorkerPhase × Option Js.Value)) (w : Ledger) : Prop :=
  match x with
  | .inl _ => Awaits c os w
  | .inr (p, _) => At c o os p w

theorem call_watched (hat : At t.worker o os phase w) :
    Watched answer contract t (Reached t.worker o os) (call t.worker o phase token) w := by
  have hquiet : ((request t.worker (.invoke o.operationId o.terms.downstreamKey o.terms token)) >>= fun receipt =>
      requireLease t.worker o >>= fun _ => (pure (.inr (phase, some receipt)) :
        Run (Outcome ⊕ (WorkerPhase × Option Js.Value)))).Keeps
      (fun q => q.worker = t.worker ∧ q.ask.quiet = true) fun x => ∃ receipt, x = .inr (phase, receipt) :=
    .seq (keeps_request ⟨rfl, rfl⟩) fun receipt => .seq
      (requireLease_minor.imp (fun _ hq => ⟨hq.worker, hq.quiet⟩) fun _ h => h) fun _ => ⟨some receipt, rfl⟩
  unfold call
  refine hquiet.watched_catch at_knowing ?_ (fun e w hat => ?_) hat
  · rintro _ w ⟨receipt, rfl⟩ hat
    exact hat
  · split
    · exact watched_throw
    · split
      · exact (step_watched hout hat).bind contract_kept fun _ _ _ h => watched_pure h.2
      · exact (step_watched hout hat).bind contract_kept fun _ _ _ h => watched_pure h.2.rest

theorem mutate_watched (hat : At t.worker o os phase w) :
    Watched answer contract t (Reached t.worker o os) (mutate t.worker o phase token) w := by
  unfold mutate
  refine (quiet_watched (a := .readAuthority o.terms.target token) rfl hat).bind contract_kept
    fun live w _ h => ?_
  split
  · exact (step_watched hout h.2).bind contract_kept fun _ _ _ h => watched_pure h.2.rest
  · refine (stopIfExpired_watched hout h.2).bind contract_kept fun stopped w _ hat => ?_
    cases stopped with
    | some p => exact watched_pure hat.rest
    | none =>
        refine (step_watched hout hat).bind contract_kept fun p w _ h => ?_
        refine (stopIfExpired_watched hout h.2).bind contract_kept fun stopped w _ hat => ?_
        cases stopped with
        | some p => exact watched_pure hat.rest
        | none =>
            refine (minor_watched requireLease_minor hat).bind contract_kept fun _ w _ h => ?_
            refine (quiet_watched (a := .recordDownstreamIntent o.operationId o.terms.downstreamKey) rfl
              h.2).bind contract_kept fun _ w _ h => ?_
            exact call_watched hout h.2

theorem execute_watched {actor : Option String}
    (hat : At t.worker o os phase w) :
    Watched answer contract t (fun _ w => Awaits t.worker os w)
      (execute t.worker o phase token actor) w := by
  unfold execute
  refine (stepIf_watched hout hat).bind contract_kept fun p w _ hat => ?_
  split
  · exact (step_watched hout hat).bind contract_kept fun _ _ _ h => watched_pure h.2.rest
  · split
    · exact settle_watched hout hat
    · refine (mutate_watched hout hat).bind contract_kept fun x w _ h => ?_
      cases x with
      | inl outcome => exact watched_pure h
      | inr r => exact settle_watched hout h

theorem process_watched (hat : At t.worker o os o.phase w) :
    Watched answer contract t (fun _ w => Awaits t.worker os w) (process t.worker o) w := by
  unfold process
  refine (stepIf_watched hout hat).bind contract_kept fun p w _ hat => ?_
  refine (stopEarly_watched hout hat).bind contract_kept fun stopped w _ hat => ?_
  cases stopped with
  | some p => exact watched_pure hat.rest
  | none =>
      refine (stepIf_watched hout hat).bind contract_kept fun p w _ hat => ?_
      refine (minor_watched authorize_minor hat).bind contract_kept fun authorization w _ h => ?_
      cases authorization with
      | refused next code => exact refuse_watched hout h.2
      | allowed token actor => exact execute_watched hout h.2

end

theorem processAll_watched {t : Poll} : ∀ {os : List Operation} {w : Ledger},
    (os.map Operation.operationId).Nodup → Awaits t.worker os w →
      Watched answer contract t (fun _ _ => True) (processAll t.worker os) w
  | [], w, _, _ => watched_pure True.intro
  | o :: os, w, hnodup, h => by
      rw [processAll]
      obtain ⟨hout, hnodup⟩ := List.nodup_cons.mp hnodup
      have hat : At t.worker o os o.phase w :=
        ⟨h o (List.mem_cons_self ..), fun o' ho' => h o' (List.mem_cons_of_mem _ ho')⟩
      exact (process_watched hout hat).bind contract_kept fun _ w _ h => processAll_watched hnodup h

/-! ## Polls -/

theorem db_of_claim (h : p.claimable = true) :
    ∃ d, phaseToDb (workerPhase p.claim) = some d ∧ d.1 = p.claim := by
  cases p <;> cases h <;> exact ⟨_, rfl, rfl⟩

theorem claimed_rows (hw : w.Distinct) {limit : Int} {rows : List Row}
    (hclaim : w.claim c limit = (.ok rows, w')) :
    (rows.map Row.operationId).Nodup ∧ ∀ r ∈ rows, w'.row r.operationId = some r := by
  have hstep := claim_step hw c limit
  rw [hclaim] at hstep
  obtain ⟨rfl, rfl⟩ := claim_eq_ok hclaim
  refine ⟨?_, fun r hr => row_of_mem hstep.distinct ?_⟩
  · show (((w.expire.rows.filter _).map _).map Row.operationId).Nodup
    rw [List.map_map]
    exact List.Nodup.sublist (List.filter_sublist.map _) (distinct_expire hw)
  · obtain ⟨r₀, hr₀, rfl⟩ := List.mem_map.mp hr
    obtain ⟨hmem, hid⟩ := List.mem_filter.mp hr₀
    exact List.mem_map.mpr ⟨r₀, hmem, if_pos hid⟩

theorem claim_watched {t : Poll} :
    Watched answer contract t (fun (rows : List Row) w => (rows.map Row.operationId).Nodup ∧
        ∀ r ∈ rows, ∃ d, phaseToDb (workerPhase r.phase) = some d ∧
          Knows t.worker r.operationId d.1.Loose w)
      (request t.worker (.claim t.limit)) w := by
  refine request_watched (a := .claim t.limit) fun v hv _ => ⟨?_, fun e rows hrows => ?_⟩
  · rintro id next d r hask
    cases hask
  change (e.database (v.advance e.elapsed) ((v.advance e.elapsed).claim t.worker t.limit)).1 = _ at hrows
  show _ ∧ ∀ r ∈ rows, ∃ d, _ ∧ Knows _ _ _
    (e.database (v.advance e.elapsed) ((v.advance e.elapsed).claim t.worker t.limit)).2
  unfold Turn.database at hrows ⊢
  split at hrows
  · have hv' := distinct_advance hv.distinct e.elapsed
    obtain ⟨w', hclaim⟩ : ∃ w', (v.advance e.elapsed).claim t.worker t.limit = (.ok rows, w') :=
      ⟨_, Prod.ext hrows rfl⟩
    obtain ⟨hnodup, htable⟩ := claimed_rows hv' hclaim
    refine ⟨hnodup, fun r hr => ?_⟩
    obtain ⟨r₀, -, hclaimable, hr₀⟩ := claimed_cases hv' hclaim hr
    obtain ⟨d, hd, hphase⟩ := db_of_claim hclaimable
    have hsame : r.phase = r₀.phase.claim := congrArg Row.phase hr₀
    refine ⟨d, by rw [hsame]; exact hd, fun r' hr' _ => .inl ?_⟩
    rw [hclaim] at hr'
    obtain rfl := Option.some.inj ((htable r hr).symm.trans hr')
    rw [hsame, hphase]
  · cases hrows
  · cases hrows

theorem poll_watched (t : Poll) (w : Ledger) :
    Watched answer contract t (fun _ _ => True) (setting.program t) w := by
  refine claim_watched.bind contract_kept fun rows w _ h => ?_
  refine Watched.bind contract_kept (m := fun os w => (os.map Operation.operationId).Nodup ∧
    Awaits t.worker os w) (watched_lift fun os hos => ?_) fun os w _ h => processAll_watched h.1 h.2
  obtain rfl := mapM_workerOperation hos
  refine ⟨?_, fun o ho => ?_⟩
  · rw [List.map_map]
    exact h.1
  · obtain ⟨r, hr, rfl⟩ := List.mem_map.mp ho
    exact h.2 r hr

/-! ## Runs -/

/-- One worker at a time holds an operation. -/
theorem heldBy_unique {r : Row} {c' : Claimant} (h : r.heldBy c = true) (h' : r.heldBy c' = true) :
    c' = c := by
  obtain ⟨worker, epoch⟩ := c
  obtain ⟨worker', epoch'⟩ := c'
  simp only [Row.heldBy, Bool.and_eq_true, decide_eq_true_eq] at h h'
  rw [Option.some.inj (h.1.symm.trans h'.1), Option.some.inj (h.2.symm.trans h'.2)]

theorem answer_relied (hw : w.Distinct) (e : Turn) {q' : Query} (hq : q.Storable w)
    (hne : q'.worker ≠ q.worker)
    (hlive : ∀ r r', w.row r.operationId = some r → r.heldBy q'.worker = true →
      q'.ask.storing r.operationId = true → (answer e q w).2.row r.operationId = some r' →
        ¬ (r.phase.expires = true ∧ r'.phase = .timedOut)) :
    q'.Relies w (answer e q w).2 := by
  refine ⟨fun id r' hr' hheld' => ?_, (answer_changes hw e hq).final⟩
  rcases (answer_step hw e q).before hw hr' with ⟨r, hr, hstep⟩ | hfresh
  · obtain ⟨-, rfl⟩ := mem_of_row hr
    generalize hwho : some q = who at hstep
    cases hstep with
    | same => exact ⟨_, hr, hheld', .inl rfl⟩
    | released => cases hwho
    | expired c limit hphase hdue =>
        refine ⟨r, hr, hheld', .inr ⟨hphase, rfl, ?_⟩⟩
        by_contra hstoring
        exact hlive r _ hr hheld' (Bool.not_eq_false _ ▸ hstoring) hr' ⟨hphase, rfl⟩
    | claimed c limit =>
        cases hwho
        exact absurd (heldBy_unique (by simp [Row.heldBy, Row.claim]) hheld') hne
    | beat | intended => exact ⟨r, hr, hheld', .inl rfl⟩
    | stored c next p v hp hheld =>
        cases hwho
        exact absurd (heldBy_unique hheld hheld') hne
  · exact absurd hfresh.claimOwner (heldBy_owner hheld')

theorem change_relied (hw : w.Sound) (x : Nat × Outside) (q : Query) :
    q.Relies w (change x w) := by
  refine ⟨fun id r' hr' hheld' => ?_, (change_changes hw.distinct x).final⟩
  rcases (change_step hw.distinct x).before hw.distinct hr' with ⟨r, hr, hstep⟩ | hfresh
  · obtain ⟨hmem, rfl⟩ := mem_of_row hr
    generalize hwho : (none : Option Query) = who at hstep
    cases hstep with
    | same => exact ⟨_, hr, hheld', .inl rfl⟩
    | released nextAttemptAt h =>
        exact absurd ((hw.rows r hmem).waiting (.inr h)) (heldBy_owner (r := r) hheld')
    | expired | claimed | intended | stored => cases hwho
    | beat => exact ⟨r, hr, hheld', .inl rfl⟩
  · exact absurd hfresh.claimOwner (heldBy_owner hheld')

/-- No worker runs two polls at a time, and no claim lets an operation expire while the worker that
holds it is storing another phase. -/
def Orderly (m : Action) (s : State) : Prop :=
  match m with
  | .step i e => ∀ t q next, s.tasks[i]? = some ⟨t, .ask q next⟩ →
      ∀ j t' q' next', j ≠ i → s.tasks[j]? = some ⟨t', .ask q' next'⟩ →
        t'.worker ≠ t.worker ∧
          ∀ r r', s.world.row r.operationId = some r → r.heldBy t'.worker = true →
            q'.ask.storing r.operationId = true →
            (answer e q s.world).2.row r.operationId = some r' →
              ¬ (r.phase.expires = true ∧ r'.phase = .timedOut)
  | _ => True

theorem relied_of_orderly (m : Action) (s : State) (h : s.Watchful setting contract) (hm : Orderly m s) :
    m.Relied setting contract s := by
  cases m with
  | start t => exact True.intro
  | crash i => exact True.intro
  | step i e =>
      intro t q next hi
      obtain ⟨hworker, hstorable⟩ := h.needs contract_kept (List.mem_of_getElem? hi)
      refine ⟨True.intro, fun j t' q' next' hne hj => ?_⟩
      obtain ⟨hworker', -⟩ := h.needs contract_kept (List.mem_of_getElem? hj)
      obtain ⟨hother, hlive⟩ := hm t q next hi j t' q' next' (fun heq => hne (congrArg some heq)) hj
      refine answer_relied h.world.distinct e hstorable (by rw [hworker, hworker']; exact hother) ?_
      rw [hworker']
      exact hlive
  | outside x =>
      exact ⟨(change_step h.world.distinct x).sound h.world, (change_changes h.world.distinct x).final,
        fun i t q next _ _ => change_relied h.world x q⟩

theorem perform_changes {m : Action} {s : State} (h : s.Watchful setting contract) :
    s.world.Changes (perform m s).world :=
  s.perform_world (fun _ r hr => ⟨r, hr, .same _⟩)
    (fun e _ _ _ hi => answer_changes h.world.distinct e (h.needs contract_kept hi).2)
    (change_changes h.world.distinct) m

theorem initial_watchful (clock : Timestamp) : (initial clock).Watchful setting contract :=
  ⟨reach_sound clock [], fun _ htask => absurd htask List.not_mem_nil⟩

theorem reach_append (clock : Timestamp) (ms ms' : List Action) :
    reach clock (ms ++ ms') = System.run perform ms' (reach clock ms) :=
  System.run_append perform ms ms' (initial clock)

/-- **Final phases.**  In every run in which no worker runs two polls at a time and no claim lets an
operation expire between the heartbeat of a step and the phase that it stores, every phase changes as
it may, and one that is final does not change again. -/
theorem phases_final (clock : Timestamp) (ms : List Action)
    (h : Along perform Orderly ms (initial clock)) :
    (∀ before m after, ms = before ++ m :: after →
      ∀ id r, (reach clock before).world.row id = some r →
        ∃ r', (reach clock (before ++ [m])).world.row id = some r' ∧ Change r.phase r'.phase) ∧
    ∀ before after, ms = before ++ after →
      ∀ id r, (reach clock before).world.row id = some r → r.phase.final = true →
        ∃ r', (reach clock ms).world.row id = some r' ∧ r'.phase = r.phase := by
  have hwatchful : ∀ {before after : List Action}, ms = before ++ after →
      (reach clock before).Watchful setting contract ∧
        Along perform Orderly after (reach clock before) := by
    rintro before after rfl
    obtain ⟨hbefore, hafter⟩ := Along.append.mp h
    exact ⟨((initial_watchful clock).run contract_kept (fun t w _ => poll_watched t w)
      relied_of_orderly hbefore).1, hafter⟩
  constructor
  · intro before m after hms id r hr
    rw [reach_append]
    exact perform_changes (hwatchful hms).1 id r hr
  · intro before after hms id r hr hfinal
    obtain ⟨hstart, halong⟩ := hwatchful hms
    have hkept := (hstart.run contract_kept (fun t w _ => poll_watched t w) relied_of_orderly halong).2
    obtain ⟨r', hr', hsame⟩ := hkept id r hr
    refine ⟨r', ?_, hsame hfinal⟩
    rw [hms, reach_append]
    exact hr'

/-! ## A phase that is stored too late -/

namespace Demo

def approvedRestart : Terms := { restart with riskClass := some .r3, idempotencyKey := "restart-2" }

/-- The first claim of a worker after the deadline comes before the first phase that another stores. -/
def lateRun : List Action := .outside (0, .accept Demo.id restart) :: pollFor worker 5 ++
  [.start ⟨other, 5⟩, .step 1 { turn with elapsed := 600000000 }]

/-- A worker carries out the operation, and another one claims. -/
def succeededRun : List Action := .outside (0, .accept Demo.id restart) :: pollFor worker 33 ++
  [.crash 0, .outside (31000000, .queue Demo.id 0), .start ⟨other, 5⟩, .step 0 turn]

def phaseAfter (ms : List Action) : Option Phase :=
  ((reach 0 ms).world.row Demo.id).map Row.phase

end Demo

theorem phase_of_demo {ms : List Action} (h : Demo.phaseAfter ms = some p) :
    ∃ r, (reach 0 ms).world.row Demo.id = some r ∧ r.phase = p :=
  Option.map_eq_some_iff.mp h

/-- An operation that has timed out goes on to its preflight, and an approved operation is queued,
which is no edge of `PHASE_TRANSITIONS` and nothing that a claim does. -/
theorem timedOut_overwritten :
    (∃ ms m r r', (reach 0 ms).world.row Demo.id = some r ∧ r.phase = .timedOut ∧
      (reach 0 (ms ++ [m])).world.row Demo.id = some r' ∧ r'.phase = .preflighting) ∧
    ∃ ms m r r', (reach 0 ms).world.row Demo.id = some r ∧
      (reach 0 (ms ++ [m])).world.row Demo.id = some r' ∧ r.phase ≠ r'.phase ∧
      ¬ (∃ current next, next ∈ current.transitions ∧ (phaseToDb current).map Prod.fst = some r.phase ∧
          (phaseToDb next).map Prod.fst = some r'.phase) ∧
      ¬ (r.phase.claimable = true ∧ r'.phase = r.phase.claim) ∧
      ¬ (r.phase.expires = true ∧ r'.phase = .timedOut) := by
  have hlate : Demo.phaseAfter Demo.lateRun = some .timedOut ∧
      Demo.phaseAfter (Demo.lateRun ++ [.step 0 Demo.turn]) = some .preflighting := by
    decide
  have hqueue : Demo.phaseAfter [.outside (0, .accept Demo.id Demo.approvedRestart)] = some .awaitingApproval ∧
      Demo.phaseAfter ([.outside (0, .accept Demo.id Demo.approvedRestart)] ++
        [.outside (0, .queue Demo.id 0)]) = some .queued := by
    decide
  constructor
  · obtain ⟨r, hr, hphase⟩ := phase_of_demo hlate.1
    obtain ⟨r', hr', hphase'⟩ := phase_of_demo hlate.2
    exact ⟨_, _, r, r', hr, hphase, hr', hphase'⟩
  · obtain ⟨r, hr, hphase⟩ := phase_of_demo hqueue.1
    obtain ⟨r', hr', hphase'⟩ := phase_of_demo hqueue.2
    refine ⟨_, _, r, r', hr, hr', ?_⟩
    rw [hphase, hphase']
    refine ⟨nofun, ?_, nofun, nofun⟩
    rintro ⟨current, next, -, -, hnext⟩
    cases next <;> cases hnext

theorem orderly_of_alone {m : Action} {s : State} (h : s.tasks.length ≤ 1) : Orderly m s := by
  cases m with
  | step i e =>
      intro t q next hi j t' q' next' hne hj
      have hi' := (List.getElem?_eq_some_iff.mp hi).1
      have hj' := (List.getElem?_eq_some_iff.mp hj).1
      omega
  | _ => trivial

/-- An operation that has succeeded stays so after a release and another claim. -/
theorem succeeded_kept : ∃ before after r, Demo.succeededRun = before ++ after ∧
    (reach 0 before).world.row Demo.id = some r ∧ r.phase = .succeeded ∧
    ∃ r', (reach 0 Demo.succeededRun).world.row Demo.id = some r' ∧ r'.phase = .succeeded := by
  have hrun : Along perform (fun _ s => s.tasks.length ≤ 1) Demo.succeededRun (initial 0) ∧
      Demo.phaseAfter (Demo.succeededRun.take 35) = some .succeeded := by
    decide
  obtain ⟨r, hr, hphase⟩ := phase_of_demo hrun.2
  have hsplit := (List.take_append_drop 35 Demo.succeededRun).symm
  obtain ⟨r', hr', hsame⟩ := (phases_final 0 Demo.succeededRun
    (System.Along.imp (fun _ _ h => orderly_of_alone h) hrun.1)).2 _ _ hsplit Demo.id r hr (by rw [hphase]; rfl)
  exact ⟨_, _, r, hsplit, hr, hphase, r', hr', hsame.trans hphase⟩

end Durable
