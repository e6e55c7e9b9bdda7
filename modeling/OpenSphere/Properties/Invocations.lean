import OpenSphere.Durable.Requests
import OpenSphere.Properties.Stranded

/-!
# The owner is called at most once

The history of the ledger says who holds an operation: whoever claimed it last.  A claim that lets a
worker call the owner takes an operation that nobody held, and there is at most one of these.
`invoked_once` counts the calls by the credits that the claims give, and `stored_before` follows a
worker from the phase that it stores to its call.
-/

open Sql
open System (Program Setting Pool Move Account Discipline Yields yields_pure yields_throw yields_lift
  yields_await run_invariant)

namespace Durable

variable {w' : Ledger} {q : Query} {r : Row} {P : List Entry → Entry → Prop} {h : List Entry}
  {w : Ledger} {id : Uuid}

/-! ## The history -/

def Entry.invokes (id : Uuid) : Entry → Bool
  | .invoked _ id' => id' = id
  | _ => false

/-- A claim after which a worker may call the owner of an operation. -/
def Entry.opens (id : Uuid) : Entry → Bool
  | .claimed _ id' p => id' = id && !(workerPhase p.claim).sent
  | _ => false

def Entry.claimant (id : Uuid) : Entry → Option Claimant
  | .claimed c id' _ => if id' = id then some c else none
  | _ => none

/-- Who holds an operation: whoever claimed it last. -/
def lastClaimant (h : List Entry) (id : Uuid) : Option Claimant := (h.filterMap (Entry.claimant id)).getLast?

def Row.holder (r : Row) : Option Claimant :=
  r.claimOwner.bind fun worker => r.claimEpoch.map fun epoch => ⟨worker, epoch⟩

def Ledger.holder (w : Ledger) (id : Uuid) : Option Claimant := (w.row id).bind Row.holder

theorem lastClaimant_append (h new : List Entry) (id : Uuid) :
    lastClaimant (h ++ new) id = (lastClaimant new id).or (lastClaimant h id) := by
  rw [lastClaimant, List.filterMap_append, List.getLast?_append]
  rfl

theorem heldBy_iff {c : Claimant} : r.heldBy c = true ↔ r.holder = some c := by
  obtain ⟨worker, epoch⟩ := c
  simp [Row.heldBy, Row.holder, Option.bind_eq_some_iff]

theorem lastClaimant_eq_none :
    lastClaimant h id = none ↔ ∀ x ∈ h, x.claimant id = none := by
  rw [lastClaimant, List.getLast?_eq_none_iff, List.filterMap_eq_nil_iff]

/-- Nobody has opened an operation that nobody ever held. -/
theorem opens_of_lastClaimant (hnone : lastClaimant h id = none) :
    h.countP (Entry.opens id) = 0 := by
  rw [List.countP_eq_zero]
  intro x hx hopens
  have hclaimant := lastClaimant_eq_none.mp hnone x hx
  cases x with
  | claimed c id' p =>
      simp only [Entry.opens, Bool.and_eq_true, decide_eq_true_eq] at hopens
      simp [Entry.claimant, hopens.1] at hclaimant
  | stored c id' p => cases hopens
  | invoked c id' => cases hopens

theorem mem_of_lastClaimant {c : Claimant} (hc : lastClaimant h id = some c) :
    ∃ p, .claimed c id p ∈ h := by
  obtain ⟨x, hx, hclaimant⟩ := List.mem_filterMap.mp (List.mem_of_getLast? hc)
  cases x with
  | claimed c' id' p =>
      simp only [Entry.claimant, Option.ite_none_right_eq_some, Option.some.injEq] at hclaimant
      obtain ⟨rfl, rfl⟩ := hclaimant
      exact ⟨p, hx⟩
  | stored c' id' p => cases hclaimant
  | invoked c' id' => cases hclaimant

def Preceded (P : List Entry → Entry → Prop) (h : List Entry) : Prop :=
  ∀ before x after, h = before ++ x :: after → P before x

theorem preceded_nil : Preceded P [] :=
  fun before x after h => absurd h.symm (by simp)

theorem Preceded.append {new : List Entry} (hh : Preceded P h)
    (hnew : ∀ before x after, new = before ++ x :: after → P (h ++ before) x) :
    Preceded P (h ++ new) := by
  intro before x after heq
  rcases List.append_eq_append_iff.mp heq with ⟨l, rfl, hrest⟩ | ⟨l, rfl, hrest⟩
  · exact hnew l x after hrest
  · cases l with
    | nil =>
        simpa using hnew [] x after hrest.symm
    | cons y l =>
        cases hrest
        exact hh before x l rfl

/-- The history grows by entries that fit anything. -/
theorem Preceded.append_free {new : List Entry} (hh : Preceded P h)
    (hnew : ∀ x ∈ new, ∀ before, P before x) : Preceded P (h ++ new) :=
  hh.append fun before x after heq => hnew x (by simp [heq]) _

theorem Preceded.concat {x : Entry}
    (hh : Preceded P h) (hx : P h x) : Preceded P (h ++ [x]) := by
  refine hh.append fun before y after heq => ?_
  rcases List.cons_eq_append_iff.mp heq with ⟨rfl, htail⟩ | ⟨l, rfl, htail⟩
  · cases htail
    rw [List.append_nil]
    exact hx
  · simp at htail

/-- A phase is stored by the worker that holds the claim. -/
def Entry.Held (before : List Entry) : Entry → Prop
  | .stored c id _ => lastClaimant before id = some c
  | _ => True

/-- A worker calls an owner after it has stored that it does. -/
def Entry.Announced (before : List Entry) : Entry → Prop
  | .invoked c id => .stored c id .running ∈ before
  | _ => True

/-! ## What is recorded -/

inductive Ledger.Logs (w : Ledger) : List Entry → Prop where
  | nothing : Ledger.Logs w []
  | claims (c : Claimant) (rows : List Row) (hrows : ∀ r ∈ rows, r ∈ w.rows ∧ r.phase.claimable = true)
      (hdistinct : (rows.map Row.operationId).Nodup) :
      Ledger.Logs w (rows.map fun r => .claimed c r.operationId r.phase)
  | stored (c : Claimant) (id : Uuid) (p : Phase) (hheld : w.holder id = some c) :
      Ledger.Logs w [.stored c id p]
  | invoked (c : Claimant) (id : Uuid) : Ledger.Logs w [.invoked c id]

/-- The history grows, and says who holds an operation. -/
def Ledger.Extends (w w' : Ledger) : Prop :=
  ∃ new, w.Logs new ∧ w'.history = w.history ++ new ∧
    ∀ id, w'.holder id = (lastClaimant new id).or (w.holder id)

theorem holder_update {f : Row → Row} (hf : ∀ r, (f r).operationId = r.operationId)
    (hholder : ∀ r, (f r).holder = r.holder) (id : Uuid) : (w.update f).holder id = w.holder id := by
  unfold Ledger.holder
  rw [row_update hf, Option.bind_map]
  exact congrArg _ (funext hholder)

theorem Ledger.Extends.of_holder (hhistory : w'.history = w.history)
    (h : ∀ id, w'.holder id = w.holder id) : w.Extends w' :=
  ⟨[], .nothing, by rw [hhistory, List.append_nil], h⟩

theorem Ledger.Extends.advanced {elapsed : Nat} (h : (w.advance elapsed).Extends w') :
    w.Extends w' := by
  obtain ⟨new, hlogs, hhistory, hholder⟩ := h
  refine ⟨new, ?_, hhistory, hholder⟩
  cases hlogs with
  | nothing => exact .nothing
  | claims c rows hrows hdistinct => exact .claims c rows hrows hdistinct
  | stored c id p hheld => exact .stored c id p hheld
  | invoked c id => exact .invoked c id

/-- Nobody holds an operation that has been accepted now. -/
theorem holder_concat (hr : r.claimOwner = none) (id : Uuid) :
    ({ w with rows := w.rows ++ [r] } : Ledger).holder id = w.holder id := by
  have hnone : r.holder = none := by rw [Row.holder, hr, Option.bind_none]
  simp only [Ledger.holder, Ledger.row, List.find?_append]
  cases w.rows.find? fun r => decide (r.operationId = id) with
  | some r => rfl
  | none =>
      rw [Option.none_or, List.find?_singleton]
      split
      · exact hnone
      · rfl

theorem expire_holder {now : Timestamp} (r : Row) : (r.expire now).holder = r.holder := by
  unfold Row.expire
  split <;> rfl

/-- A claim makes its worker the holder of what it claims. -/
theorem lastClaimant_claims (c : Claimant) (rows : List Row) (id : Uuid) :
    lastClaimant (rows.map fun r => .claimed c r.operationId r.phase) id =
      if rows.any fun r => r.operationId = id then some c else none := by
  have hclaimant : ∀ r : Row, Entry.claimant id (.claimed c r.operationId r.phase) =
      if r.operationId = id then some c else none := fun r => rfl
  split
  next h =>
    obtain ⟨r, hr, hid⟩ := List.any_eq_true.mp h
    cases hlast : lastClaimant (rows.map fun r => Entry.claimed c r.operationId r.phase) id with
    | none =>
        have hnone := lastClaimant_eq_none.mp hlast _ (List.mem_map_of_mem hr)
        rw [hclaimant, if_pos (of_decide_eq_true hid)] at hnone
        cases hnone
    | some c' =>
        obtain ⟨p, hp⟩ := mem_of_lastClaimant hlast
        obtain ⟨r', -, heq⟩ := List.mem_map.mp hp
        cases heq
        rfl
  next h =>
    refine lastClaimant_eq_none.mpr fun x hx => ?_
    obtain ⟨r, hr, rfl⟩ := List.mem_map.mp hx
    rw [hclaimant, if_neg]
    exact fun hid => h (List.any_eq_true.mpr ⟨r, hr, decide_eq_true hid⟩)

theorem take_holder (w : Ledger) (c : Claimant) (ids : List Uuid) (id : Uuid) :
    (w.take c ids).2.holder id =
      (lastClaimant ((w.rows.filter fun r => ids.contains r.operationId).map fun r =>
        .claimed c r.operationId r.phase) id).or (w.holder id) := by
  have hrow : (w.take c ids).2.row id = (w.row id).map fun r =>
      if ids.contains r.operationId then r.claim c w.clock else r :=
    row_update (fun r => by split <;> rfl) id
  rw [lastClaimant_claims, Ledger.holder, hrow, Ledger.holder]
  cases hfound : w.row id with
  | none =>
      have hnone : (w.rows.filter fun r => ids.contains r.operationId).any
          (fun r => decide (r.operationId = id)) = false := by
        simp only [List.any_eq_false, List.mem_filter, decide_eq_true_eq]
        rintro r ⟨hr, -⟩ rfl
        exact absurd (List.find?_eq_none.mp hfound r hr) (by simp)
      rw [hnone]
      rfl
  | some r =>
      obtain ⟨hr, rfl⟩ := mem_of_row hfound
      by_cases hid : ids.contains r.operationId = true
      · rw [if_pos (List.any_eq_true.mpr ⟨r, List.mem_filter.mpr ⟨hr, hid⟩, decide_eq_true rfl⟩)]
        simp only [Option.map_some, Option.bind_some, if_pos hid]
        rfl
      · rw [if_neg]
        · simp only [Option.map_some, Option.bind_some, if_neg hid, Option.none_or]
        · intro hany
          obtain ⟨r', hr', hsame⟩ := List.any_eq_true.mp hany
          rw [← of_decide_eq_true hsame] at hid
          exact hid (List.mem_filter.mp hr').2

theorem claim_extends (hw : w.Distinct) (c : Claimant) (limit : Int) :
    w.Extends (w.claim c limit).2 := by
  unfold Ledger.claim
  split
  · exact .of_holder rfl fun _ => rfl
  · refine ⟨_, .claims c (w.expire.rows.filter fun r =>
      (w.expire.selected limit).contains r.operationId) ?_ ?_, rfl, fun id => ?_⟩
    · exact fun r hr => claimable_of_taken hw hr
    · exact List.Nodup.sublist (List.filter_sublist.map _) (distinct_expire hw)
    · dsimp only
      rw [take_holder]
      congr 1
      exact holder_update expire_operationId expire_holder id

theorem setPhase_extends (w : Ledger) (hw : w.Distinct) (c : Claimant) (id : Uuid) (next : WorkerPhase) :
    w.Extends (w.setPhase c id next).2 := by
  unfold Ledger.setPhase
  split
  · exact .of_holder rfl fun _ => rfl
  next p hp =>
    split
    next hheld =>
      obtain ⟨r, hr, hrow⟩ := List.any_eq_true.mp hheld
      simp only [Row.claimed, Bool.and_eq_true, decide_eq_true_eq] at hrow
      obtain ⟨rfl, hrow⟩ := hrow
      refine ⟨_, .stored c r.operationId p.1 ?_, rfl, fun id => ?_⟩
      · rw [Ledger.holder, row_of_mem hw hr]
        exact heldBy_iff.mp hrow
      · refine holder_update (f := Row.store c r.operationId next p) (fun r' => ?_) (fun r' => ?_) id
        · unfold Row.store
          split <;> rfl
        · unfold Row.store
          split <;> rfl
    · exact .of_holder rfl fun _ => rfl

theorem intend_extends (w : Ledger) (c : Claimant) (id : Uuid) (key : String) :
    w.Extends (w.recordDownstreamIntent c id key).2 := by
  unfold Ledger.recordDownstreamIntent
  split
  · refine .of_holder rfl fun id' => holder_update (f := Row.intend c id key) (fun r => ?_) (fun r => ?_) id'
    · unfold Row.intend
      split <;> rfl
    · unfold Row.intend
      split <;> rfl
  · exact .of_holder rfl fun _ => rfl

theorem heartbeat_extends (w : Ledger) (c : Claimant) (id : Uuid) : w.Extends (w.heartbeat c id).2 := by
  refine .of_holder rfl fun id' => holder_update (f := Row.beat c id w.clock) (fun r => ?_) (fun r => ?_) id'
  · unfold Row.beat
    split <;> rfl
  · unfold Row.beat
    split <;> rfl

theorem answer_extends (hw : w.Distinct) (e : Turn) (q : Query) :
    w.Extends (answer e q w).2 := by
  have hw' : (w.advance e.elapsed).Distinct := distinct_advance hw e.elapsed
  have hsame : w.Extends (w.advance e.elapsed) := .of_holder rfl fun _ => rfl
  have hdatabase : ∀ {α : Type} {x : Except Failure α × Ledger},
      (w.advance e.elapsed).Extends x.2 → w.Extends (e.database (w.advance e.elapsed) x).2 := by
    intro α x hx
    unfold Turn.database
    split
    · exact hx.advanced
    · exact hx.advanced
    · exact hsame
  obtain ⟨c, a⟩ := q
  cases a with
  | claim limit => exact hdatabase (claim_extends hw' c limit)
  | heartbeat id => exact hdatabase (heartbeat_extends _ c id)
  | setPhase id phase => exact hdatabase (setPhase_extends _ hw' c id phase)
  | recordDownstreamIntent id key => exact hdatabase (intend_extends _ c id key)
  | invoke id key terms token => exact ⟨_, .invoked c id, rfl, fun _ => rfl⟩
  | _ => exact hsame

theorem change_extends (w : Ledger) (x : Nat × Outside) : w.Extends (change x w) := by
  obtain ⟨elapsed, x⟩ := x
  cases x with
  | accept id terms =>
      show w.Extends (if terms.acceptable then (w.advance elapsed).accept id terms else _)
      split
      · unfold Ledger.accept
        split
        · exact .of_holder rfl fun _ => rfl
        · exact .of_holder rfl fun id' => holder_concat (w := w) rfl id'
      · exact .of_holder rfl fun _ => rfl
  | approve a =>
      show w.Extends ((w.advance elapsed).approve a)
      unfold Ledger.approve
      split <;> exact .of_holder rfl fun _ => rfl
  | revoke id approverId => exact .of_holder rfl fun _ => rfl
  | queue id nextAttemptAt =>
      refine .of_holder rfl fun id' => holder_update (w := w) (f := Row.queue id nextAttemptAt)
        (fun r => ?_) (fun r => ?_) id'
      · unfold Row.queue
        split <;> rfl
      · unfold Row.queue
        split <;> rfl
  | heartbeat c id => exact (heartbeat_extends (w.advance elapsed) c id).advanced

/-! ## Holders of a run -/

structure Ledger.Recorded (w : Ledger) : Prop where
  sound : w.Sound
  claims : ∀ id, w.holder id = lastClaimant w.history id
  opened : ∀ id, w.history.countP (Entry.opens id) ≤ 1
  held : Preceded Entry.Held w.history

theorem countP_claims (c : Claimant) {rows : List Row}
    (hrows : ∀ r ∈ rows, r ∈ w.rows ∧ r.phase.claimable = true)
    (hdistinct : (rows.map Row.operationId).Nodup) (id : Uuid) :
    let n := (rows.map fun r => Entry.claimed c r.operationId r.phase).countP (Entry.opens id)
    n ≤ 1 ∧ (n ≠ 0 → ∃ r ∈ w.rows, r.operationId = id ∧ r.phase = .queued) := by
  dsimp only
  rw [List.countP_map]
  refine ⟨?_, fun hne => ?_⟩
  · have hone : rows.countP (fun r => decide (r.operationId = id)) ≤ 1 := by
      have hcount := List.nodup_iff_count_le_one.mp hdistinct id
      rw [List.count, List.countP_map] at hcount
      refine le_trans (List.countP_mono_left fun r _ h => ?_) hcount
      simpa using h
    refine le_trans (List.countP_mono_left fun r _ h => ?_) hone
    simp only [Function.comp_apply, Entry.opens, Bool.and_eq_true] at h
    exact h.1
  · obtain ⟨r, hr, hopens⟩ := List.countP_pos_iff.mp (Nat.pos_of_ne_zero hne)
    obtain ⟨hmem, hclaimable⟩ := hrows r hr
    simp only [Function.comp_apply, Entry.opens, Bool.and_eq_true, decide_eq_true_eq,
      Bool.not_eq_true'] at hopens
    refine ⟨r, hmem, hopens.1, ?_⟩
    generalize r.phase = p at hclaimable hopens
    cases p <;> cases hclaimable <;> first
      | rfl
      | cases hopens.2

theorem holder_of_queued (hw : w.Sound) (hr : r ∈ w.rows)
    (hphase : r.phase = .queued) : w.holder r.operationId = none := by
  rw [Ledger.holder, row_of_mem hw.distinct hr, Option.bind_some, Row.holder,
    (hw.rows r hr).waiting (.inl hphase), Option.bind_none]

theorem Ledger.Recorded.extend (h : w.Recorded) (hsound : w'.Sound)
    (hextends : w.Extends w') : w'.Recorded := by
  obtain ⟨new, hlogs, hhistory, hholder⟩ := hextends
  refine ⟨hsound, fun id => ?_, fun id => ?_, ?_⟩
  · rw [hholder, hhistory, lastClaimant_append, h.claims]
  · rw [hhistory, List.countP_append]
    have hold := h.opened id
    cases hlogs with
    | nothing => exact hold
    | stored => exact hold
    | invoked => exact hold
    | claims c rows hrows hdistinct =>
        obtain ⟨hone, hqueued⟩ := countP_claims c hrows hdistinct id
        by_cases hne : (rows.map fun r => Entry.claimed c r.operationId r.phase).countP
            (Entry.opens id) = 0
        · omega
        · obtain ⟨r, hr, rfl, hphase⟩ := hqueued hne
          have hnone := opens_of_lastClaimant ((h.claims _).symm.trans (holder_of_queued h.sound hr hphase))
          omega
  · rw [hhistory]
    cases hlogs with
    | nothing => simpa using h.held
    | invoked c id => exact h.held.concat True.intro
    | stored c id p hheld => exact h.held.concat ((h.claims id).symm.trans hheld)
    | claims c rows hrows hdistinct =>
        refine h.held.append_free fun x hx before => ?_
        obtain ⟨r, -, rfl⟩ := List.mem_map.mp hx
        exact True.intro

theorem perform_extends {s : State} (hs : s.world.Distinct) (m : Action) :
    s.world.Extends (perform m s).world :=
  s.perform_world (.of_holder rfl fun _ => rfl) (fun e _ q _ _ => answer_extends hs e q)
    (change_extends s.world) m

theorem reach_recorded (clock : Timestamp) (ms : List Action) : (reach clock ms).world.Recorded := by
  refine run_invariant (I := fun s : State => s.world.Recorded) (fun m s hs => ?_) ?_ ms
  · obtain ⟨who, hstep⟩ := perform_step hs.sound.distinct m
    exact hs.extend (hstep.sound hs.sound) (perform_extends hs.sound.distinct m)
  · exact ⟨reach_sound clock [], fun id => rfl, fun id => Nat.zero_le 1, preceded_nil⟩

/-! ## Credits -/

/-- A request that calls the owner of an operation. -/
def uses (id : Uuid) (q : Query) : Nat :=
  match q.ask with
  | .invoke id' .. => if id' = id then 1 else 0
  | _ => 0

/-- A claim lets a worker call the owner of what it returns and what cannot have been sent. -/
def grants (id : Uuid) (q : Query) : q.Answer → Nat :=
  match q with
  | ⟨_, .claim _⟩ => fun rows : List Row =>
      rows.countP fun r => decide (r.operationId = id) && !(workerPhase r.phase).sent
  | _ => fun _ => 0

/-- The calls of the owner of an operation, and the claims that allow them. -/
def callAccount (id : Uuid) : Account Query Query.Answer Ledger where
  uses := uses id
  grants := grants id
  used w := w.history.countP (Entry.invokes id)
  granted w := w.history.countP (Entry.opens id)

/-- What a request records of the owner's calls. -/
def Recording (id : Uuid) (q : Query) (w : Ledger) (x : Except Failure q.Answer × Ledger) : Prop :=
  ∃ new, x.2.history = w.history ++ new ∧ new.countP (Entry.invokes id) ≤ uses id q ∧
    ∀ y, x.1 = .ok y → grants id q y ≤ new.countP (Entry.opens id)

theorem claim_recording (id : Uuid) (c : Claimant) (limit : Int) (w : Ledger) :
    Recording id ⟨c, .claim limit⟩ w (w.claim c limit) := by
  unfold Ledger.claim
  split
  · exact ⟨[], (List.append_nil _).symm, le_rfl, fun y hy => nomatch hy⟩
  · refine ⟨_, rfl, ?_, fun rows hrows => ?_⟩
    · rw [List.countP_map]
      exact Nat.le_of_eq (List.countP_eq_zero.mpr fun r _ => Bool.false_ne_true)
    · obtain rfl := Except.ok.inj hrows
      show (((w.expire.rows.filter fun r => (w.expire.selected limit).contains r.operationId).map
        (Row.claim c w.expire.clock)).countP _) ≤ _
      rw [List.countP_map, List.countP_map]
      exact le_rfl

theorem recording_nil {x : Except Failure q.Answer × Ledger}
    (hhistory : x.2.history = w.history) (hgrants : ∀ y, x.1 = .ok y → grants id q y = 0) :
    Recording id q w x :=
  ⟨[], by rw [hhistory, List.append_nil], Nat.zero_le _, fun y hy => Nat.le_of_eq (hgrants y hy)⟩

theorem setPhase_recording (id : Uuid) (c : Claimant) (id' : Uuid) (next : WorkerPhase) (w : Ledger) :
    Recording id ⟨c, .setPhase id' next⟩ w (w.setPhase c id' next) := by
  unfold Ledger.setPhase
  split
  · exact recording_nil rfl fun _ _ => rfl
  · split
    · exact ⟨_, rfl, le_rfl, fun _ _ => le_rfl⟩
    · exact recording_nil rfl fun _ _ => rfl

theorem intend_recording (id : Uuid) (c : Claimant) (id' : Uuid) (key : String) (w : Ledger) :
    Recording id ⟨c, .recordDownstreamIntent id' key⟩ w (w.recordDownstreamIntent c id' key) := by
  unfold Ledger.recordDownstreamIntent
  split
  · exact recording_nil rfl fun _ _ => rfl
  · exact recording_nil rfl fun _ _ => rfl

theorem database_recording {e : Turn}
    {x : Except Failure q.Answer × Ledger} (h : Recording id q (w.advance e.elapsed) x) :
    Recording id q w (e.database (w.advance e.elapsed) x) := by
  obtain ⟨new, hnew, huses, hgrants⟩ := h
  unfold Turn.database
  split
  · exact ⟨new, hnew, huses, hgrants⟩
  · exact ⟨new, hnew, huses, nofun⟩
  · exact recording_nil rfl nofun

theorem answer_recording (id : Uuid) (e : Turn) (q : Query) (w : Ledger) :
    Recording id q w (answer e q w) := by
  obtain ⟨c, a⟩ := q
  cases a with
  | claim limit => exact database_recording (claim_recording id c limit _)
  | heartbeat id' => exact database_recording (recording_nil rfl fun _ _ => rfl)
  | setPhase id' phase => exact database_recording (setPhase_recording id c id' phase _)
  | recordDownstreamIntent id' key => exact database_recording (intend_recording id c id' key _)
  | invoke id' key terms token =>
      refine ⟨[.invoked c id'], rfl, Nat.le_of_eq ?_, fun _ _ => Nat.zero_le _⟩
      simp [Entry.invokes, uses, List.countP_cons]
  | _ => exact recording_nil rfl fun _ _ => rfl

theorem change_history (x : Nat × Outside) (w : Ledger) : (change x w).history = w.history := by
  obtain ⟨elapsed, x⟩ := x
  cases x with
  | accept id terms =>
      show (if terms.acceptable then (w.advance elapsed).accept id terms else _).history = _
      split
      · unfold Ledger.accept
        split <;> rfl
      · rfl
  | approve a =>
      show ((w.advance elapsed).approve a).history = _
      unfold Ledger.approve
      split <;> rfl
  | revoke id approverId => rfl
  | queue id nextAttemptAt => rfl
  | heartbeat c id => rfl

theorem uses_of_calm (h : q.ask.calm = true) : uses id q = 0 := by
  obtain ⟨c, a⟩ := q
  cases a <;> first
    | rfl
    | cases h

section

variable {c : Claimant} {o : Operation} {id : Uuid} {α : Type}

theorem internal_uses {post : α → Prop} {p : Run α} (h : p.Keeps Query.internal post) :
    p.Keeps (fun q => uses id q = 0) post :=
  h.imp (fun _ hq => uses_of_calm hq.calm) fun _ hx => hx

theorem resumes_uses {post : α → Prop} {p : Run α} (h : p.Keeps (Query.Resumes o) post) :
    p.Keeps (fun q => uses id q = 0) post :=
  h.imp (fun _ hq => uses_of_calm hq.calm) fun _ hx => hx

def Operation.cost (o : Operation) (id : Uuid) : Nat := if o.operationId = id then 1 else 0

theorem call_spends {phase : WorkerPhase} {token : String} :
    (call c o phase token).Spends (uses id) (grants id) (o.cost id) := by
  unfold call
  refine .tryCatch ?_ fun e => ?_
  · refine ⟨le_rfl, fun x => ?_, fun e => True.intro⟩
    exact (internal_uses requireLease_keeps).spends fun _ _ => True.intro
  · split
    · trivial
    · split
      · exact (internal_uses step_keeps).spends fun _ _ => True.intro
      · exact (internal_uses step_keeps).spends fun _ _ => True.intro

theorem mutate_spends {phase : WorkerPhase} {token : String} :
    (mutate c o phase token).Spends (uses id) (grants id) (o.cost id) := by
  unfold mutate
  refine (internal_uses (keeps_request rfl)).spends fun live _ => ?_
  split
  · exact (internal_uses step_keeps).spends fun _ _ => True.intro
  · refine (internal_uses stopIfExpired_keeps).spends fun stopped _ => ?_
    cases stopped with
    | some phase => trivial
    | none =>
        refine (internal_uses step_keeps).spends fun phase _ => ?_
        refine (internal_uses stopIfExpired_keeps).spends fun stopped _ => ?_
        cases stopped with
        | some phase => trivial
        | none =>
            refine (internal_uses requireLease_keeps).spends fun _ _ => ?_
            exact (internal_uses (keeps_request rfl)).spends fun _ _ => call_spends

theorem execute_spends {phase : WorkerPhase} {token : String} {actor : Option String} :
    (execute c o phase token actor).Spends (uses id) (grants id)
      (o.cost id) := by
  unfold execute
  refine (internal_uses stepIf_keeps).spends fun phase _ => ?_
  split
  · exact (internal_uses step_keeps).spends fun _ _ => True.intro
  · split
    · exact (resumes_uses settle_keeps).spends_self
    · refine mutate_spends.bind (m := 0) fun x => ?_
      cases x with
      | inl outcome => trivial
      | inr r => exact (resumes_uses settle_keeps).spends_self

def Operation.credit (o : Operation) (id : Uuid) : Nat := if o.phase.sent then 0 else o.cost id

/-- A run calls the owner of its operation at most once, and not at all if it resumes. -/
theorem process_spends : (process c o).Spends (uses id) (grants id) (o.credit id) := by
  by_cases hsent : o.phase.sent = true
  · exact (resumes_uses (process_resumes hsent)).spends_self
  · rw [Operation.credit, if_neg hsent]
    unfold process
    refine (internal_uses stepIf_keeps).spends fun phase _ => ?_
    refine (internal_uses stopEarly_keeps).spends fun stopped _ => ?_
    cases stopped with
    | some phase => trivial
    | none =>
        refine (internal_uses stepIf_keeps).spends fun phase _ => ?_
        refine (internal_uses authorize_keeps).spends fun authorization _ => ?_
        cases authorization with
        | refused next code => exact (internal_uses refuse_keeps).spends_self
        | allowed token actor => exact execute_spends

theorem processAll_spends : ∀ os : List Operation,
    (processAll c os).Spends (uses id) (grants id) (os.map (Operation.credit · id)).sum
  | [] => trivial
  | o :: os => by
      rw [processAll, List.map_cons, List.sum_cons]
      exact process_spends.bind fun _ => processAll_spends os

theorem sum_credit (limit : Int) {rows : List Row} {os : List Operation}
    (hos : rows.mapM workerOperation = .ok os) :
    (os.map (Operation.credit · id)).sum = grants id ⟨c, .claim limit⟩ rows := by
  obtain rfl := mapM_workerOperation hos
  clear hos
  show _ = rows.countP _
  induction rows with
  | nil => rfl
  | cons r rows ih =>
      rw [List.map_cons, List.map_cons, List.sum_cons, ih, List.countP_cons, Nat.add_comm]
      congr 1
      unfold Operation.credit Operation.cost
      cases (workerPhase r.phase).sent <;> simp

theorem poll_spends (limit : Int) : (poll c limit).Spends (uses id) (grants id) 0 := by
  refine ⟨le_rfl, fun rows => ?_, fun e => True.intro⟩
  show Program.Spends _ _ _ (Program.lift (rows.mapM workerOperation) >>= processAll c)
  cases hos : rows.mapM workerOperation with
  | error e => trivial
  | ok os =>
      refine (processAll_spends os).mono (Nat.le_of_eq ?_)
      rw [sum_credit limit hos]
      exact (Nat.zero_add _).symm

end

/-- The workers keep the account of the owner's calls. -/
theorem setting_keeps (id : Uuid) : setting.Keeps (callAccount id) where
  program t := poll_spends t.limit
  used e q w := by
    obtain ⟨new, hnew, huses, -⟩ := answer_recording id e q w
    show (answer e q w).2.history.countP _ ≤ w.history.countP _ + uses id q
    rw [hnew, List.countP_append]
    exact Nat.add_le_add_left huses _
  granted e q w := by
    obtain ⟨new, hnew, -, -⟩ := answer_recording id e q w
    show w.history.countP _ ≤ (answer e q w).2.history.countP _
    rw [hnew, List.countP_append]
    exact Nat.le_add_right _ _
  grants e q w x hx := by
    obtain ⟨new, hnew, -, hgrants⟩ := answer_recording id e q w
    show w.history.countP _ + grants id q x ≤ (answer e q w).2.history.countP _
    rw [hnew, List.countP_append]
    exact Nat.add_le_add_left (hgrants x hx) _
  change x w := by
    have hsame := change_history x w
    exact ⟨Nat.le_of_eq (congrArg (List.countP _) hsame), Nat.le_of_eq (congrArg (List.countP _) hsame).symm⟩

/-- An owner is called as often as claims allow it. -/
theorem invokes_le (clock : Timestamp) (ms : List Action) (id : Uuid) :
    (reach clock ms).world.history.countP (Entry.invokes id) ≤ 1 := by
  have hcovered : (reach clock ms).Covered (callAccount id) := by
    refine run_invariant (I := fun s : State => s.Covered (callAccount id)) (fun m s hs => ?_) ?_ ms
    · exact hs.perform (setting_keeps id) m
    · exact ⟨[], rfl, fun x hx => absurd hx List.not_mem_nil, le_rfl⟩
  exact le_trans hcovered.used_le ((reach_recorded clock ms).opened id)

/-! ## The order of a call -/

/-- Every call of an owner is announced, and the history only grows. -/
def announcing : Discipline Turn Query Ledger where
  valid w := Preceded Entry.Announced w.history
  rely w w' := w.history <+: w'.history
  guarantee w w' := w.history <+: w'.history
  allowed _ _ _ := True

theorem announcing_closed : announcing.Closed where
  refl _ := List.prefix_rfl
  trans h h' := List.IsPrefix.trans h h'
  share h := h

theorem calm_announcing (e : Turn) (q : Query) (w : Ledger) (hq : q.ask.calm = true)
    (hw : announcing.valid w) :
    announcing.valid (answer e q w).2 ∧ announcing.guarantee w (answer e q w).2 := by
  have hnew : ∃ new, (answer e q w).2.history = w.history ++ new ∧ ∀ id, new.countP (Entry.invokes id) = 0 := by
    obtain ⟨new, hnew, -⟩ := answer_recording ⟨0⟩ e q w
    refine ⟨new, hnew, fun id => ?_⟩
    obtain ⟨new', hnew', huses, -⟩ := answer_recording id e q w
    obtain rfl := List.append_cancel_left (hnew'.symm.trans hnew)
    have hcalm : uses id q = 0 := uses_of_calm hq
    exact Nat.le_zero.mp (hcalm ▸ huses)
  obtain ⟨new, hnew, hnone⟩ := hnew
  show Preceded _ (answer e q w).2.history ∧ _ <+: (answer e q w).2.history
  rw [hnew]
  refine ⟨hw.append_free fun x hx before => ?_, List.prefix_append _ _⟩
  cases x with
  | invoked c id => exact absurd (List.countP_eq_zero.mp (hnone id) _ hx) (by simp [Entry.invokes])
  | _ => trivial

section

variable {c : Claimant} {o : Operation} {phase : WorkerPhase} {token : String} {α : Type} {w : Ledger}

theorem internal_yields {post : α → Prop} {p : Run α} (h : p.Keeps Query.internal post) :
    Yields answer announcing (fun x _ => post x) p w :=
  h.yields fun e q w hq hw => calm_announcing e q w hq.calm hw

theorem lift_keeps (x : Except Failure α) : (Program.lift x : Run α).Keeps Query.internal fun _ => True :=
  Program.keeps_lift fun _ _ => True.intro

theorem resumes_yields {post : α → Prop} {p : Run α} (h : p.Keeps (Query.Resumes o) post) :
    Yields answer announcing (fun x _ => post x) p w :=
  h.yields fun e q w hq hw => calm_announcing e q w hq.calm hw

theorem request_yields {a : Ask} {post : a.Answer → Ledger → Prop}
    (h : ∀ e w', announcing.valid w' → announcing.rely w w' →
      announcing.valid (answer e ⟨c, a⟩ w').2 ∧ announcing.guarantee w' (answer e ⟨c, a⟩ w').2 ∧
        ∀ x, (answer e ⟨c, a⟩ w').1 = .ok x → post x (answer e ⟨c, a⟩ w').2) :
    Yields answer announcing post (request c a) w :=
  yields_await (q := ⟨c, a⟩) fun e w' hw' hrely _ => h e w' hw' hrely

/-- The worker has stored that it calls the owner. -/
def Announced (c : Claimant) (o : Operation) (w : Ledger) : Prop :=
  .stored c o.operationId .running ∈ w.history

theorem Announced.later (h : Announced c o w) (hrely : announcing.rely w w') :
    Announced c o w' :=
  List.IsPrefix.mem h hrely

theorem setPhase_announces (e : Turn) (w : Ledger) (x : Unit)
    (h : (answer e ⟨c, .setPhase o.operationId .executing⟩ w).1 = .ok x) :
    Announced c o (answer e ⟨c, .setPhase o.operationId .executing⟩ w).2 := by
  change (e.database (w.advance e.elapsed) ((w.advance e.elapsed).setPhase c o.operationId .executing)).1 = _ at h
  show Announced c o (e.database (w.advance e.elapsed) ((w.advance e.elapsed).setPhase c o.operationId .executing)).2
  unfold Turn.database Ledger.setPhase at h ⊢
  split at h
  · simp only [phaseToDb] at h ⊢
    split at h
    next hheld =>
      rw [if_pos hheld]
      exact List.mem_append_right _ (List.mem_singleton_self _)
    next => cases h
  · cases h
  · cases h

theorem step_announces {type : StepType} {status : StepStatus} {code : String} :
    Yields answer announcing (fun _ w => Announced c o w)
      (step c o phase .executing type status code) w := by
  unfold step
  refine .bind announcing_closed (internal_yields requireLease_keeps) fun _ w _ _ => ?_
  refine .bind announcing_closed (internal_yields (lift_keeps _)) fun p w _ _ => ?_
  refine .bind announcing_closed (internal_yields (keeps_request rfl)) fun _ w _ _ => ?_
  have hstore : Yields answer announcing (fun _ w => Announced c o w)
      (request c (.setPhase o.operationId .executing)) w := by
    refine request_yields fun e w' hw' _ => ?_
    obtain ⟨hvalid, hguarantee⟩ := calm_announcing e ⟨c, .setPhase o.operationId .executing⟩ w' rfl hw'
    exact ⟨hvalid, hguarantee, setPhase_announces e w'⟩
  exact .bind announcing_closed hstore fun _ w _ h => yields_pure h

theorem call_yields (h : Announced c o w) :
    Yields answer announcing (fun _ _ => True) (call c o phase token) w := by
  unfold call
  refine .tryCatch announcing_closed ?_ fun e w _ => ?_
  · have hinvoke : Yields answer announcing (fun _ _ => True)
        (request c (.invoke o.operationId o.terms.downstreamKey o.terms token)) w := by
      refine request_yields fun e w' hw' hrely => ⟨?_, ?_, fun _ _ => True.intro⟩
      · exact hw'.concat (h.later hrely)
      · exact List.prefix_append _ _
    refine .bind announcing_closed hinvoke fun _ w _ _ => ?_
    exact .bind announcing_closed (internal_yields requireLease_keeps) fun _ _ _ _ => yields_pure True.intro
  · split
    · exact yields_throw
    · split
      · exact .bind announcing_closed (internal_yields step_keeps) fun _ _ _ _ => yields_pure True.intro
      · exact .bind announcing_closed (internal_yields step_keeps) fun _ _ _ _ => yields_pure True.intro

theorem mutate_yields : Yields answer announcing (fun _ _ => True) (mutate c o phase token) w := by
  unfold mutate
  refine .bind announcing_closed (internal_yields (keeps_request rfl)) fun live w _ _ => ?_
  split
  · exact .bind announcing_closed (internal_yields step_keeps) fun _ _ _ _ => yields_pure True.intro
  · refine .bind announcing_closed (internal_yields stopIfExpired_keeps) fun stopped w _ _ => ?_
    cases stopped with
    | some phase => exact yields_pure True.intro
    | none =>
        refine .bind announcing_closed step_announces fun phase w _ h => ?_
        refine .bind announcing_closed (internal_yields stopIfExpired_keeps) fun stopped w hrely _ => ?_
        replace h := h.later hrely
        cases stopped with
        | some phase => exact yields_pure True.intro
        | none =>
            refine .bind announcing_closed (internal_yields requireLease_keeps) fun _ w hrely _ => ?_
            replace h := h.later hrely
            refine .bind announcing_closed (internal_yields (keeps_request rfl)) fun _ w hrely _ => ?_
            exact call_yields (h.later hrely)

theorem execute_yields {actor : Option String} :
    Yields answer announcing (fun _ _ => True) (execute c o phase token actor) w := by
  unfold execute
  refine .bind announcing_closed (internal_yields stepIf_keeps) fun phase w _ _ => ?_
  split
  · exact .bind announcing_closed (internal_yields step_keeps) fun _ _ _ _ => yields_pure True.intro
  · split
    · exact resumes_yields settle_keeps
    · refine .bind announcing_closed mutate_yields fun x w _ _ => ?_
      cases x with
      | inl outcome => exact yields_pure True.intro
      | inr r => exact resumes_yields settle_keeps

theorem process_yields : Yields answer announcing (fun _ _ => True) (process c o) w := by
  unfold process
  refine .bind announcing_closed (internal_yields stepIf_keeps) fun phase w _ _ => ?_
  refine .bind announcing_closed (internal_yields stopEarly_keeps) fun stopped w _ _ => ?_
  cases stopped with
  | some phase => exact yields_pure True.intro
  | none =>
      refine .bind announcing_closed (internal_yields stepIf_keeps) fun phase w _ _ => ?_
      refine .bind announcing_closed (internal_yields authorize_keeps) fun authorization w _ _ => ?_
      cases authorization with
      | refused next code =>
          exact (internal_yields refuse_keeps).imp fun _ _ _ => True.intro
      | allowed token actor => exact execute_yields

theorem processAll_yields : ∀ (os : List Operation) (w : Ledger),
    Yields answer announcing (fun _ _ => True) (processAll c os) w
  | [], w => yields_pure True.intro
  | o :: os, w => by
      rw [processAll]
      exact .bind announcing_closed process_yields fun _ w _ _ => processAll_yields os w

end

theorem setting_fits : setting.Fits announcing where
  closed := announcing_closed
  program t w _ := by
    show Yields answer announcing _ (poll t.worker t.limit) w
    have hclaim : Yields answer announcing (fun _ _ => True) (request t.worker (.claim t.limit)) w := by
      refine request_yields fun e w' hw' _ => ?_
      obtain ⟨hvalid, hguarantee⟩ := calm_announcing e ⟨t.worker, .claim t.limit⟩ w' rfl hw'
      exact ⟨hvalid, hguarantee, fun _ _ => True.intro⟩
    refine .bind announcing_closed hclaim fun rows w _ _ => ?_
    refine .bind announcing_closed (internal_yields (lift_keeps _)) fun os w _ _ => ?_
    exact processAll_yields os w
  change x w hw := by
    have hsame := change_history x w
    exact ⟨(congrArg (Preceded Entry.Announced) hsame).mpr hw, ⟨[], (List.append_nil _).trans hsame.symm⟩⟩

theorem reach_announced (clock : Timestamp) (ms : List Action) :
    Preceded Entry.Announced (reach clock ms).world.history :=
  (Pool.Sound.run setting_fits (s := initial clock)
    ⟨preceded_nil, fun task htask => absurd htask List.not_mem_nil⟩
    (.trivial (fun m s => by cases m <;> first
      | exact True.intro
      | exact fun _ _ _ _ => True.intro) ms _)).world

/-! ## Calls of a run -/

/-- Somebody holds an operation whose owner was called. -/
theorem holder_of_invoked (hw : w.Recorded) (hannounced : Preceded Entry.Announced w.history)
    {c : Claimant} (h : .invoked c id ∈ w.history) : w.holder id ≠ none := by
  obtain ⟨before, after, heq⟩ := List.append_of_mem h
  have hstored : .stored c id .running ∈ before := hannounced before _ after heq
  obtain ⟨before', after', rfl⟩ := List.append_of_mem hstored
  rw [List.append_assoc, List.cons_append] at heq
  have hheld : lastClaimant before' id = some c := hw.held before' _ _ heq
  rw [hw.claims, heq, lastClaimant_append, hheld]
  cases lastClaimant _ id <;> exact Option.some_ne_none _

/-- A claim returns what waits as claimed, and the rest as what may have been sent. -/
theorem sent_of_claimable {p : Phase} (h : p.claimable = true) :
    p = .queued ∨ (workerPhase p.claim).sent = true ∧ workerPhase p.claim ≠ .executing := by
  cases p <;> cases h <;> first
    | exact .inl rfl
    | exact .inr ⟨rfl, nofun⟩

/-- **The owner is called at most once.**  In every run the owner of an operation is called at most
once, by a worker that has stored the phase Running before, and phases are stored by the worker that
holds the claim.  A run of an operation that may have been sent calls no owner: it asks by the key of
the operation what has become of the call, before it verifies anything, and it returns without asking
only if its execution is not authorized. -/
theorem invoked_once (clock : Timestamp) (ms : List Action) :
    (∀ id, (reach clock ms).world.history.countP (Entry.invokes id) ≤ 1) ∧
      Preceded Entry.Announced (reach clock ms).world.history ∧
      Preceded Entry.Held (reach clock ms).world.history ∧
      ∀ elapsed c limit rows w' r o,
        ((reach clock ms).world.advance elapsed).claim c limit = (.ok rows, w') → r ∈ rows →
        workerOperation r = .ok o →
        ((∃ r₀, (reach clock ms).world.row r.operationId = some r₀ ∧ r₀.phase.unsettled = true) ∨
          ∃ c', .invoked c' r.operationId ∈ (reach clock ms).world.history) →
        (process c o).Keeps (Query.Resumes o) (fun _ => True) ∧
          (process c o).Gated Query.reconciles Query.verifies fun x => x.phase = .inconclusive := by
  have hrecorded := reach_recorded clock ms
  have hannounced := reach_announced clock ms
  refine ⟨invokes_le clock ms, hannounced, hrecorded.held, ?_⟩
  intro elapsed c limit rows w' r o hclaim hr ho hsent
  obtain rfl := workerOperation_eq_ok ho
  obtain ⟨r₀, hr₀, hclaimable, rfl⟩ :=
    claimed_cases (distinct_advance hrecorded.sound.distinct elapsed) hclaim hr
  have hphase : (workerPhase r₀.phase.claim).sent = true ∧ workerPhase r₀.phase.claim ≠ .executing := by
    refine (sent_of_claimable hclaimable).resolve_left fun hqueued => ?_
    rcases hsent with ⟨r₁, hr₁, hunsettled⟩ | ⟨c', hinvoked⟩
    · obtain rfl := Option.some.inj ((row_of_mem hrecorded.sound.distinct hr₀).symm.trans hr₁)
      rw [hqueued] at hunsettled
      cases hunsettled
    · exact holder_of_invoked hrecorded hannounced hinvoked
        (holder_of_queued (r := r₀) hrecorded.sound hr₀ hqueued)
  exact ⟨process_resumes hphase.1, process_gated hphase.1 hphase.2⟩

namespace Demo

/-- A worker calls the owner and ends. -/
def invokedRun : List Action := .outside (0, .accept Demo.id restart) :: pollFor worker 20 ++ [.crash 0]

end Demo

/-- After a worker has called the owner and ended, another one resumes the operation. -/
theorem invoked_resumed : ∃ rows w' r o,
    (reach 0 Demo.invokedRun).world.history.countP (Entry.invokes Demo.id) = 1 ∧
      ((reach 0 Demo.invokedRun).world.advance 31000000).claim Demo.other 5 = (.ok rows, w') ∧
      r ∈ rows ∧ workerOperation r = .ok o ∧ (process Demo.other o).Keeps (Query.Resumes o) fun _ => True := by
  have hrun : (reach 0 Demo.invokedRun).world.history.countP (Entry.invokes Demo.id) = 1 ∧
      (match (((reach 0 Demo.invokedRun).world.advance 31000000).claim Demo.other 5).1 with
        | .ok rows => rows.any fun r => decide (r.operationId = Demo.id) && (workerOperation r).isOk
        | .error _ => false) = true ∧
      .invoked Demo.worker Demo.id ∈ (reach 0 Demo.invokedRun).world.history := by
    decide
  have honce := (invoked_once 0 Demo.invokedRun).2.2.2 31000000 Demo.other 5
  generalize (reach 0 Demo.invokedRun).world = w at *
  obtain ⟨hcount, hrows, hinvoked⟩ := hrun
  obtain ⟨rows, w', hclaim⟩ := exists_claim (c := Demo.other) (w.advance 31000000) 5 (by decide)
  rw [hclaim] at hrows
  obtain ⟨r, hr, hrow⟩ := List.any_eq_true.mp hrows
  simp only [Bool.and_eq_true, decide_eq_true_eq, Sql.isOk_iff] at hrow
  obtain ⟨hid, o, ho⟩ := hrow
  exact ⟨rows, w', r, o, hcount, hclaim, hr, ho,
    (honce rows w' r o hclaim hr ho (.inr ⟨_, hid ▸ hinvoked⟩)).1⟩

end Durable
