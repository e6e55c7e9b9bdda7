import Mathlib.Data.List.Chain
import OpenSphere.Audit.Ledger
import OpenSphere.Properties.Fencing

/-!
# The chain of the audit ledger

Whatever transactions do in between, the events a holder of the lock sees form
one chain, its last hash is the one a running call has read, and no sequence
number is above the identity column.  What is committed is a beginning of that
chain and only grows.

The hash of a row is the one an auditor recomputes from its columns unless the
call left the reason NULL: the hash is then taken of a JSON null and the row
stores the empty text.  The evidence, which has a default too, is replaced
before both.
-/

open Sql
open Authority (Event Digest Statement EventArgs Outcome Db eventSchema)

namespace Audit

variable {D : Digest} {C : AppendArgs → Prop}
variable {s : Statement} {l l' : Ledger} {e : Event} {rows : List Event}

/-! ## Chains -/

/-- The events, in the order of their sequence numbers, form one chain. -/
structure Chained (rows : List Event) : Prop where
  ordered : Ascending (·.sequenceId) rows
  first : ∀ e, rows.head? = some e → e.previousHash = none
  linked : rows.IsChain fun e e' => e'.previousHash = some e.eventHash

theorem Chained.nil : Chained [] where
  ordered := List.Pairwise.nil
  first _ h := by simp at h
  linked := .nil

theorem Chained.append_left {more : List Event} (h : Chained (rows ++ more)) : Chained rows where
  ordered := h.ordered.append_left
  first e he := h.first e (by rw [List.head?_append, he]; rfl)
  linked := (List.isChain_append.mp h.linked).1

theorem Chained.snoc (h : Chained rows)
    (hnext : ∀ x ∈ rows, x.sequenceId < e.sequenceId)
    (hprevious : e.previousHash = rows.getLast?.map (·.eventHash)) : Chained (rows ++ [e]) where
  ordered := h.ordered.snoc hnext
  first x hx := by
    cases hrows : rows with
    | nil =>
        rw [hrows] at hx hprevious
        cases hx
        exact hprevious
    | cons y ys =>
        rw [hrows] at hx
        exact h.first x (by rw [hrows]; exact hx)
  linked := by
    refine List.isChain_append.mpr ⟨h.linked, .singleton _, ?_⟩
    intro x hx y hy
    cases hy
    rw [hprevious, Option.mem_def.mp hx]
    rfl

theorem lastHash_eq (h : Chained rows) :
    lastHash rows = rows.getLast?.map (·.eventHash) := by
  rw [lastHash, orderDesc_eq_reverse h.ordered, List.head?_reverse]

/-! ## What one statement does -/

@[simp] theorem Ledger.seen_of_free (h : l.holder = none) :
    l.seen = l.committed.rows := by
  simp [Ledger.seen, h]

theorem Ledger.seen_of_holder {h : Holder} (hh : l.holder = some h) :
    l.seen = l.committed.rows ++ h.inserted := by
  simp [Ledger.seen, hh]

/-- A call that begins meets a condition on its arguments. -/
def Act.Calls (C : AppendArgs → Prop) : Act → Prop
  | .lock _ _ a => C a
  | _ => True

/-- A statement as the other transactions see it: it goes on with the call of the
holder, drops what the holder has inserted, or commits it.  Calls begin with
arguments in `C` only. -/
inductive Step (D : Digest) (C : AppendArgs → Prop) (l : Ledger) : Ledger → Prop where
  | same : Step D C l l
  /-- A call takes the lock. -/
  | lock {h : Holder} {s : Statement} {a : AppendArgs}
      (hholder : l.holder = some h ∨ (l.holder = none ∧ h.inserted = [])) (ha : C a) :
      Step D C l { l with holder := some { h with point := .locked s a } }
  | read {h : Holder} {s : Statement} {a : AppendArgs} (hholder : l.holder = some h)
      (hpoint : h.point = .locked s a) :
      Step D C l { l with holder := some { h with point := .read s a (lastHash l.seen) } }
  | insert {h : Holder} {s : Statement} {a : AppendArgs} {previousHash : Option String} {e : Event}
      (hholder : l.holder = some h) (hpoint : h.point = .read s a previousHash)
      (hnext : l.sequence + 1 ≤ maxBigint)
      (hrow : newRow D s (l.sequence + 1) a previousHash = .ok e) :
      Step D C l { l with
        sequence := l.sequence + 1
        holder := some { h with inserted := h.inserted ++ [e], point := .idle } }
  | commit {rows : Table eventSchema} (hrows : rows.rows = l.seen) :
      Step D C l { l with committed := rows, holder := none }
  /-- The transaction is rolled back. -/
  | drop {n : Int} (hn : l.sequence ≤ n) (hmax : l.sequence ≤ maxBigint → n ≤ maxBigint) :
      Step D C l { l with sequence := n, holder := none }

theorem rollback_step (l : Ledger) (t : Nat) : Step D C l (l.rollback t) := by
  unfold Ledger.rollback
  split
  · exact .drop (Int.le_refl _) id
  · exact .same

theorem insert_step (l : Ledger) (t : Nat) : Step D C l (l.insert D t) := by
  have hnext : l.sequence ≤ l.sequence + 1 := by omega
  unfold Ledger.insert
  split
  next t' inserted s a previousHash hholder =>
    split
    · dsimp only
      split
      · exact .drop (Int.le_refl _) id
      next hmax =>
        have hmax : l.sequence + 1 ≤ maxBigint := Int.not_lt.mp hmax
        split
        · exact .drop hnext fun _ => hmax
        next e hrow =>
          split
          · exact .drop hnext fun _ => hmax
          · exact .insert hholder rfl hmax hrow
    · exact .same
  next => exact .same

theorem perform_step {a : Act} (ha : a.Calls C) (l : Ledger) :
    Step D C l (perform D a l) := by
  cases a with
  | lock t s a =>
      show Step D C l (l.lock t s a)
      unfold Ledger.lock
      split
      next hfree => exact .lock (h := ⟨t, [], .idle⟩) (.inr ⟨hfree, rfl⟩) ha
      next h hholder =>
        split
        · exact .lock (.inl hholder) ha
        · exact .same
  | read t =>
      show Step D C l (l.read t)
      unfold Ledger.read
      split
      next t' inserted s a hholder =>
        split
        next ht =>
          have hvisible : l.visible t = l.seen := by simp [Ledger.visible, hholder, ht]
          rw [hvisible]
          exact .read (h := ⟨t', inserted, .locked s a⟩) hholder rfl
        · exact .same
      next => exact .same
  | insert t => exact insert_step l t
  | commit t =>
      show Step D C l (l.commit t)
      unfold Ledger.commit
      split
      · split
        next rows hrows => exact .commit (Table.ofRows_rows hrows)
        next => exact .drop (Int.le_refl _) id
      · exact .same
  | rollback t | truncate t => exact rollback_step l t
  | update t p f | delete t p =>
      show Step D C l (if (l.visible t).any p then l.rollback t else l)
      split
      · exact rollback_step l t
      · exact .same

/-! ## The invariant -/

/-- The chain a holder of the lock sees, and what its call has read of it. -/
structure Ledger.Inv (l : Ledger) : Prop where
  chained : Chained l.seen
  /-- The identity column counts from 1. -/
  sequence : 0 ≤ l.sequence ∧ l.sequence ≤ maxBigint
  numbered : ∀ e ∈ l.seen, 1 ≤ e.sequenceId ∧ e.sequenceId ≤ l.sequence
  read : ∀ h s a previousHash, l.holder = some h → h.point = .read s a previousHash →
    previousHash = l.seen.getLast?.map (·.eventHash)

theorem Ledger.inv_fresh : Ledger.fresh.Inv where
  chained := .nil
  sequence := by decide
  numbered _ he := by cases he
  read _ _ _ _ hh := by cases hh

theorem Ledger.Inv.committed (h : l.Inv) : Chained l.committed.rows :=
  h.chained.append_left

/-- A row carries the hash it was given and what its call was given. -/
theorem newRow_eq_ok {n : Int} {a : AppendArgs}
    {previousHash : Option String} (h : newRow D s n a previousHash = .ok e) :
    e.sequenceId = n ∧ e.previousHash = previousHash ∧
      e.eventHash = D.hash (chainDocument s.eventId s.now a previousHash) ∧
      e.eventId = s.eventId ∧ e.occurredAt = s.now ∧
      stored e = { a with
        reason := some (coalesce a.reason "")
        evidence := some (coalesce a.evidence (.object [])) } := by
  simp only [newRow, bind_eq_ok, notNull_eq_ok, orRaise_eq_ok, pure_eq_ok] at h
  obtain ⟨correlationId, hcorrelation, actorRef, hactor, action, haction, targetRef, htarget,
    outcomeText, htext, outcome, houtcome, rfl⟩ := h
  have houtcome : outcome.text = outcomeText := by
    have hfound := List.find?_some houtcome
    simpa using hfound
  refine ⟨rfl, rfl, rfl, rfl, rfl, ?_⟩
  simp [stored, hcorrelation, hactor, haction, htarget, htext, houtcome]

theorem Step.inv (h : Step D C l l') (hl : l.Inv) : l'.Inv := by
  cases h with
  | same => exact hl
  | @lock h s a hholder _ =>
      have hseen : ({ l with holder := some { h with point := .locked s a } } : Ledger).seen =
          l.seen := by
        rcases hholder with hholder | ⟨hfree, hnone⟩
        · simp [Ledger.seen, hholder]
        · simp [Ledger.seen, hfree, hnone]
      exact ⟨hseen ▸ hl.chained, hl.sequence, hseen ▸ hl.numbered, by
        rintro _ _ _ _ ⟨⟩ hpoint
        cases hpoint⟩
  | @read h s a hholder hpoint =>
      have hseen : ({ l with holder := some { h with
          point := .read s a (lastHash l.seen) } } : Ledger).seen = l.seen := by
        simp [Ledger.seen, hholder]
      refine ⟨hseen ▸ hl.chained, hl.sequence, hseen ▸ hl.numbered, ?_⟩
      rintro _ _ _ _ ⟨⟩ hpoint'
      cases hpoint'
      rw [hseen]
      exact lastHash_eq hl.chained
  | @insert h s a previousHash e hholder hpoint hmax hrow =>
      obtain ⟨hnumber, hprevious, -⟩ := newRow_eq_ok hrow
      have hseen : ({ l with
          sequence := l.sequence + 1
          holder := some { h with inserted := h.inserted ++ [e], point := .idle } } : Ledger).seen =
          l.seen ++ [e] := by
        simp [Ledger.seen, hholder]
      have hbefore : ∀ x ∈ l.seen, x.sequenceId < e.sequenceId := by
        intro x hx
        have := (hl.numbered x hx).2
        omega
      have hsequence := hl.sequence
      refine ⟨?_, ⟨by show 0 ≤ l.sequence + 1; omega, hmax⟩, ?_, ?_⟩
      · rw [hseen]
        exact hl.chained.snoc hbefore (hprevious.trans (hl.read h s a _ hholder hpoint))
      · intro x hx
        rw [hseen] at hx
        show 1 ≤ x.sequenceId ∧ x.sequenceId ≤ l.sequence + 1
        rcases List.mem_append.mp hx with hx | hx
        · have := hl.numbered x hx
          omega
        · rw [List.mem_singleton.mp hx]
          omega
      · rintro _ _ _ _ ⟨⟩ hpoint'
        cases hpoint'
  | commit hrows =>
      refine ⟨?_, hl.sequence, ?_, fun _ _ _ _ hh => by cases hh⟩
      · rw [Ledger.seen_of_free rfl, hrows]
        exact hl.chained
      · rw [Ledger.seen_of_free rfl, hrows]
        exact hl.numbered
  | drop hn hmax =>
      refine ⟨?_, ⟨Int.le_trans hl.sequence.1 hn, hmax hl.sequence.2⟩, ?_, fun _ _ _ _ hh => by cases hh⟩
      · rw [Ledger.seen_of_free rfl]
        exact hl.committed
      · intro e he
        rw [Ledger.seen_of_free rfl] at he
        have := hl.numbered e (List.mem_append_left _ he)
        exact ⟨this.1, Int.le_trans this.2 hn⟩

theorem Step.committed_grows (h : Step D C l l') :
    l.committed.rows <+: l'.committed.rows := by
  cases h with
  | commit hrows =>
      rw [hrows]
      exact List.prefix_append ..
  | _ => exact List.prefix_refl _

theorem Act.calls_any (a : Act) : a.Calls fun _ => True := by
  cases a <;> exact True.intro

theorem reach_inv (D : Digest) (as : List Act) : (reach D as).Inv :=
  System.run_invariant (fun a l hl => (perform_step a.calls_any l).inv hl) Ledger.inv_fresh as

theorem run_committed_grows (D : Digest) (as : List Act) (l : Ledger) :
    l.committed.rows <+: (System.run (perform D) as l).committed.rows :=
  System.run_relation (R := fun l l' : Ledger => l.committed.rows <+: l'.committed.rows)
    (fun _ => List.prefix_refl _) (fun h h' => h.trans h')
    (fun a l => (perform_step a.calls_any l).committed_grows) as l

/-! ## What the arguments of the calls say about the rows -/

def Point.args : Point → Option AppendArgs
  | .idle => none
  | .locked _ a => some a
  | .read _ a _ => some a

/-- Running calls have arguments in `C`, and the rows a property. -/
structure Ledger.Of (C : AppendArgs → Prop) (P : Event → Prop) (l : Ledger) : Prop where
  args : ∀ h a, l.holder = some h → h.point.args = some a → C a
  rows : ∀ e ∈ l.seen, P e

/-- A property of every row that is made of arguments in `C` is one of every row
there is, as long as calls begin with such arguments. -/
theorem Step.of {P : Event → Prop}
    (hrow : ∀ s n a previousHash e, C a → newRow D s n a previousHash = .ok e → P e)
    (h : Step D C l l') (hl : l.Of C P) : l'.Of C P := by
  cases h with
  | same => exact hl
  | @lock h s a hholder ha =>
      refine ⟨?_, fun e he => hl.rows e ?_⟩
      · rintro _ _ ⟨⟩ ⟨⟩
        exact ha
      · rcases hholder with hholder | ⟨hfree, hnone⟩
        · simpa [Ledger.seen, hholder] using he
        · simpa [Ledger.seen, hfree, hnone] using he
  | @read h s a hholder hpoint =>
      refine ⟨?_, fun e he => hl.rows e (by simpa [Ledger.seen, hholder] using he)⟩
      rintro _ _ ⟨⟩ ⟨⟩
      exact hl.args h a hholder (by rw [hpoint]; rfl)
  | @insert h s a previousHash e hholder hpoint _ hnew =>
      refine ⟨?_, fun x hx => ?_⟩
      · rintro _ _ ⟨⟩ ⟨⟩
      · simp only [Ledger.seen, Option.map_some, Option.getD_some, ← List.append_assoc] at hx
        rcases List.mem_append.mp hx with hx | hx
        · exact hl.rows x (by rwa [Ledger.seen_of_holder hholder])
        · rw [List.mem_singleton.mp hx]
          exact hrow s _ a _ e (hl.args h a hholder (by rw [hpoint]; rfl)) hnew
  | commit hrows =>
      refine ⟨fun _ _ hh => (by cases hh), fun e he => hl.rows e ?_⟩
      rwa [Ledger.seen_of_free rfl, hrows] at he
  | drop _ _ =>
      refine ⟨fun _ _ hh => (by cases hh), fun e he => hl.rows e ?_⟩
      rw [Ledger.seen_of_free rfl] at he
      exact List.mem_append_left _ he

theorem reach_of {P : Event → Prop} {as : List Act}
    (hrow : ∀ s n a previousHash e, C a → newRow D s n a previousHash = .ok e → P e)
    (has : ∀ a ∈ as, a.Calls C) : ∀ e ∈ (reach D as).committed.rows, P e := by
  have hof : (reach D as).Of C P := by
    refine System.Along.invariant (C := fun a _ => a.Calls C)
      (fun a l hl ha => (perform_step ha l).of hrow hl) ?_
      ⟨fun _ _ hh => (by cases hh), fun _ he => (by cases he)⟩
    exact System.Along.of_forall has _
  exact fun e he => hof.rows e (List.mem_append_left _ he)

/-! ## Re-hashing -/

/-- The row of a call with a reason carries the hash of its own columns. -/
theorem newRow_recomputed {n : Int} {a : AppendArgs}
    {previousHash : Option String} (ha : a.reason ≠ none)
    (h : newRow D s n a previousHash = .ok e) : e.eventHash = recomputed D e := by
  obtain ⟨-, hprevious, hhash, hid, hat, hstored⟩ := newRow_eq_ok h
  obtain ⟨reason, hreason⟩ := Option.ne_none_iff_exists'.mp ha
  rw [hhash, recomputed, hid, hat, hprevious, hstored]
  simp [chainDocument, hreason, coalesce]

/-- **The audit chain.**  Whatever appends, updates and deletions transactions
attempt in between, the committed events form one chain and every later ledger
goes on with it.  If no call leaves the reason NULL, every event carries the
hash its columns give. -/
theorem audit_chain (D : Digest) (as bs : List Act) :
    Chained (reach D as).committed.rows ∧
    (reach D as).committed.rows <+: (reach D (as ++ bs)).committed.rows ∧
    ((∀ a ∈ as, a.Calls fun a => a.reason ≠ none) →
      ∀ e ∈ (reach D as).committed.rows, e.eventHash = recomputed D e) := by
  refine ⟨(reach_inv D as).committed, ?_, fun has => ?_⟩
  · rw [reach, reach, System.run_append]
    exact run_committed_grows D bs _
  · exact reach_of (fun _ _ _ _ _ ha hnew => newRow_recomputed ha hnew) has

def demoCall (reason : Option String) : AppendArgs :=
  ⟨none, some "request-1", some "alice", some "console.test", some "target", some "accepted", reason,
    none⟩

/-- One call without a reason, committed: the hash of its row is not the one its
columns give. -/
theorem rehash_rejects :
    ¬ ∀ e ∈ (reach Authority.Demo.digest
        (appendCall 1 (Authority.Demo.second 0) (demoCall none))).committed.rows,
      e.eventHash = recomputed Authority.Demo.digest e := by
  decide +kernel

/-! ## The calls of the operation authority -/

/-- The arguments the functions of the operation authority pass. -/
def AppendArgs.ofEvent (a : EventArgs) : AppendArgs where
  operationId := a.operationId
  correlationId := a.correlationId
  actorRef := a.actorRef
  action := some a.action
  targetRef := a.targetRef
  outcome := some a.outcome.text
  reason := a.reason
  evidence := some a.evidence

/-- The ledger of a database between two transactions. -/
structure Ledger.Shows (l : Ledger) (s : Statement) (db : Db) : Prop where
  free : l.holder = none
  committed : l.committed = db.events
  sequence : l.sequence = (db.events.rows.getLast?.map (·.sequenceId)).getD 0 + s.sequenceGap

/-- `appendEvent` is one transaction of the ledger, from the lock to the commit. -/
theorem appendEvent_transaction {db db' : Db} {a : EventArgs}
    (hl : l.Inv) (hdb : l.Shows s db) (hnext : l.sequence < maxBigint)
    (h : Authority.appendEvent D s db a = .ok db') (t : Nat) :
    System.run (perform D) (appendCall t s (.ofEvent a)) l =
      ⟨db'.events, l.sequence + 1, none⟩ := by
  obtain ⟨committed, sequence, holder⟩ := l
  obtain ⟨rfl, rfl, hsequence⟩ := hdb
  have hlast := lastHash_eq hl.committed
  simp only [Authority.appendEvent, Authority.newEvent, bind_eq_ok, notNull_eq_ok, pure_eq_ok] at h
  obtain ⟨e, ⟨correlationId, hcorrelation, actorRef, hactor, targetRef, htarget, he⟩, events, hinsert,
    rfl⟩ := h
  have hrow : newRow D s (sequence + 1) (.ofEvent a) (lastHash db.events.rows) = .ok e := by
    have houtcome : Outcome.ofText a.outcome.text = some a.outcome := by cases a.outcome <;> rfl
    have hnext : sequence + 1 =
        (db.events.rows.getLast?.map (·.sequenceId)).getD 0 + 1 + (s.sequenceGap : Int) := by
      have hsequence : sequence = (db.events.rows.getLast?.map (·.sequenceId)).getD 0 +
        (s.sequenceGap : Int) := hsequence
      omega
    have hlast : lastHash db.events.rows = db.events.rows.getLast?.map (·.eventHash) := hlast
    rw [hlast, ← he, hnext]
    simp [newRow, AppendArgs.ofEvent, hcorrelation, hactor, htarget, houtcome, notNull, orRaise,
      chainDocument, Authority.chainInput, coalesce, bind, Except.bind, pure, Except.pure]
  have hrows := Table.ofRows_insert hinsert
  have hmax : ¬ maxBigint < sequence + 1 := Int.not_lt.mpr hnext
  simp [appendCall, System.run, perform, Ledger.lock, Ledger.read, Ledger.insert, Ledger.commit, Ledger.visible,
    Ledger.seen, hmax, hrow, hrows]

theorem appendEvent_transaction_fresh : ∃ a db, System.run (perform Authority.Demo.digest)
    (appendCall 1 (Authority.Demo.second 0) (.ofEvent a)) .fresh = ⟨Db.events db, 1, none⟩ := by
  have hok : (Authority.appendEvent Authority.Demo.digest (Authority.Demo.second 0)
      (.fresh Authority.Demo.site) ⟨none, some "request-1", some "alice", "console.test", some "target",
        .accepted, none, .object []⟩).isOk = true := by decide +kernel
  obtain ⟨db, h⟩ := Sql.isOk_iff.mp hok
  exact ⟨_, db, appendEvent_transaction Ledger.inv_fresh ⟨rfl, rfl, rfl⟩ (by decide) h 1⟩

end Audit
