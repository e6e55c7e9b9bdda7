import OpenSphere.Authority.System

/-!
# The case of an operation

All a database holds about one operation: its row, its outbox rows, approvals,
receipts, revocations and audit events.  The database is the family of its
cases, indexed by the identifier of the operation, and every statement that
writes changes one case: the lemmas below say which, as an update of that
family.  The effect of a whole function is then read off by composing them.
-/

open Sql
open System (modify modify_self modify_modify modify_id eq_modify)

namespace Authority

variable {s : Statement} {D : Digest} {a : EventArgs} {f : Case → Case} {r : Outbox} {o : Operation}
  {id : Uuid}

structure Case where
  op : Option Operation
  outbox : List Outbox
  approvals : List Approval
  verifications : List VerificationReceipt
  receipts : List ExecutionReceipt
  revocations : List Revocation
  events : List Event

def Case.empty : Case := ⟨none, [], [], [], [], [], []⟩

def Db.case (db : Db) (id : Uuid) : Case where
  op := db.operations.lookup (some id)
  outbox := db.outbox.rows.filter fun r => decide (r.operationId = id)
  approvals := db.approvals.rows.filter fun a => decide (a.operationId = id)
  verifications := db.verifications.rows.filter fun v => decide (v.operationId = id)
  receipts := db.receipts.rows.filter fun x => decide (x.operationId = id)
  revocations := db.revocations.rows.filter fun v => decide (v.operationId = id)
  events := db.events.rows.filter fun e => decide (e.operationId = some id)

def replaceRow (r : Outbox) (rows : List Outbox) : List Outbox :=
  rows.map fun x => if x.outboxId = r.outboxId then r else x

/-! ## Reading a case -/

theorem Db.mem_case_outbox {db : Db} :
    r ∈ (db.case r.operationId).outbox ↔ r ∈ db.outbox.rows := by
  simp [Db.case]

theorem Db.case_outbox_key {db : Db} {x : Outbox} (hr : r ∈ (db.case id).outbox)
    (hx : x ∈ (db.case id).outbox) (hkey : x.outboxId = r.outboxId) : x = r :=
  Table.eq_of_key_eq (List.mem_filter.mp hx).1 (List.mem_filter.mp hr).1 hkey

theorem Db.case_op_eq_some {db : Db} :
    (db.case id).op = some o ↔ o ∈ db.operations.rows ∧ o.operationId = id := by
  have hlook : (db.case id).op = db.operations.lookup (some id) := rfl
  rw [hlook, Table.lookup_eq_some, Option.some_inj]
  exact and_congr_right fun _ => eq_comm

theorem Db.case_op {db : Db} :
    (db.case o.operationId).op = some o ↔ o ∈ db.operations.rows := by
  simp [Db.case_op_eq_some]

theorem Db.case_op_id {db : Db} (h : (db.case id).op = some o) :
    o.operationId = id :=
  (Db.case_op_eq_some.mp h).2

/-! ## One statement, one case -/

/-- A session with another time of last use. -/
def BrowserSession.seenAt (v : BrowserSession) (t : Timestamp) : BrowserSession :=
  { v with lastSeenAt := t }

/-- Of identity, an operation function changes at most when a session was last
seen. -/
structure Identity.Touched (i j : Identity) : Prop where
  subjects : j.subjects = i.subjects
  grants : j.grants = i.grants
  environment : j.environment = i.environment
  sessions : ∀ k, (j.sessions.lookup (some k)) = i.sessions.lookup (some k) ∨
    ∃ v t, i.sessions.lookup (some k) = some v ∧ j.sessions.lookup (some k) = some (v.seenAt t)

theorem Identity.Touched.refl (i : Identity) : i.Touched i := ⟨rfl, rfl, rfl, fun _ => .inl rfl⟩

theorem Identity.Touched.trans {i j k : Identity} (h : i.Touched j) (h' : j.Touched k) :
    i.Touched k where
  subjects := h'.subjects.trans h.subjects
  grants := h'.grants.trans h.grants
  environment := h'.environment.trans h.environment
  sessions u := by
    rcases h.sessions u with hsame | ⟨v, t, hv, hj⟩
    · rw [← hsame]
      exact h'.sessions u
    · rcases h'.sessions u with hsame | ⟨v', t', hv', hk⟩
      · exact .inr ⟨v, t, hv, hsame.trans hj⟩
      · rw [hj] at hv'
        cases hv'
        exact .inr ⟨v, t', hv, hk⟩

/-- A statement changes one case, of identity at most the use of a session, and
no revocation is undone. -/
structure Writes (db db' : Db) (id : Uuid) (f : Case → Case) : Prop where
  case : db'.case = modify db.case id f
  identity : db.identity.Touched db'.identity
  revoked : ∀ image, db.isRevoked image = true → db'.isRevoked image = true

theorem Writes.trans {db db₁ db₂ : Db} {g : Case → Case} (h : Writes db db₁ id f)
    (h' : Writes db₁ db₂ id g) : Writes db db₂ id fun c => g (f c) where
  case := by rw [h'.case, h.case, modify_modify]
  identity := h.identity.trans h'.identity
  revoked image hi := h'.revoked image (h.revoked image hi)

theorem Writes.self {db db' : Db} (h : Writes db db' id f) :
    db'.case id = f (db.case id) := by
  rw [h.case, modify_self]

theorem Writes.op {db db' : Db}
    (h : Writes db db' id f) (ho : (f (db.case id)).op = some o) : (db'.case id).op = some o := by
  rw [h.self, ho]

theorem Writes.row {db db' : Db}
    (h : Writes db db' id f) (hr : r ∈ (f (db.case id)).outbox) : r ∈ (db'.case id).outbox := by
  rw [h.self]
  exact hr

section Statements

variable {db db' : Db} {id : Uuid}

theorem insertOperation_writes (h : db.insertOperation o = .ok db')
    (hid : o.operationId = id) :
    (db.case id).op = none ∧ Writes db db' id fun c => { c with op := some o } := by
  subst hid
  obtain ⟨t, ht, hdb⟩ := bind_eq_ok.mp h
  cases hdb
  refine ⟨Table.lookup_insert_self ht, eq_modify ?_ ?_, .refl _, fun _ hi => hi⟩
  · have hop : t.lookup (some o.operationId) = some o :=
      (Table.lookup_insert ht _).trans (if_pos rfl)
    simp only [Db.case, hop]
  · intro j hj
    have hop : t.lookup (some j) = db.operations.lookup (some j) :=
      (Table.lookup_insert ht _).trans (if_neg hj)
    simp only [Db.case, hop]

theorem putOperation_writes {old : Operation} (h : db.putOperation o = .ok db')
    (hid : o.operationId = id) (hold : (db.case id).op = some old) :
    Writes db db' id fun c => { c with op := some o } := by
  subst hid
  obtain ⟨t, ht, hdb⟩ := bind_eq_ok.mp h
  cases hdb
  refine ⟨eq_modify ?_ ?_, .refl _, fun _ hi => hi⟩
  · have hlook : db.operations.lookup (some (operationSchema.key o)) = some old := hold
    have hop : t.lookup (some o.operationId) = some o := by
      have hput := Table.lookup_put ht (operationSchema.key o)
      rw [if_pos rfl, hlook] at hput
      exact hput
    simp only [Db.case, hop]
  · intro j hj
    have hop : t.lookup (some j) = db.operations.lookup (some j) :=
      (Table.lookup_put ht _).trans (if_neg hj)
    simp only [Db.case, hop]

theorem putOperation_revocations (h : db.putOperation o = .ok db') :
    db'.revocations = db.revocations := by
  obtain ⟨t, _, hdb⟩ := bind_eq_ok.mp h
  cases hdb
  rfl

theorem insertOutbox_writes (h : db.insertOutbox r = .ok db')
    (hid : r.operationId = id) :
    Writes db db' id fun c => { c with outbox := c.outbox ++ [r] } := by
  subst hid
  obtain ⟨t, ht, hdb⟩ := bind_eq_ok.mp h
  cases hdb
  refine ⟨eq_modify ?_ ?_, .refl _, fun _ hi => hi⟩
  · simp only [Db.case, Table.filter_insert ht, decide_true, if_true]
  · intro j hj
    simp [Db.case, Table.filter_insert ht, Ne.symm hj]

theorem putOutbox_writes {old : Outbox} (h : db.putOutbox r = .ok db')
    (hid : r.operationId = id) (hold : old ∈ (db.case id).outbox)
    (hkey : old.outboxId = r.outboxId) :
    Writes db db' id fun c => { c with outbox := replaceRow r c.outbox } := by
  subst hid
  obtain ⟨t, ht, hdb⟩ := bind_eq_ok.mp h
  cases hdb
  obtain ⟨hmem, hsame⟩ := List.mem_filter.mp hold
  have hlook : db.outbox.lookup (some (outboxSchema.key r)) = some old :=
    Table.lookup_eq_some.mpr ⟨hmem, congrArg some hkey.symm⟩
  have hsame := of_decide_eq_true hsame
  refine ⟨eq_modify ?_ ?_, .refl _, fun _ hi => hi⟩
  · have hrows := Table.filter_put ht hlook (p := fun x => decide (x.operationId = r.operationId))
      (by simp [hsame])
    simp only [Db.case, hrows]
    rfl
  · intro j hj
    have hrows := Table.filter_put_of_not ht hlook (p := fun x => decide (x.operationId = j))
      (by simp [hsame]) (by simpa using Ne.symm hj)
    simp only [Db.case, hrows]

theorem insertApproval_writes {a : Approval} (h : db.insertApproval a = .ok db')
    (hid : a.operationId = id) :
    Writes db db' id fun c => { c with approvals := c.approvals ++ [a] } := by
  subst hid
  obtain ⟨t, ht, hdb⟩ := bind_eq_ok.mp h
  cases hdb
  refine ⟨eq_modify ?_ ?_, .refl _, fun _ hi => hi⟩
  · simp only [Db.case, Table.filter_insert ht, decide_true, if_true]
  · intro j hj
    simp [Db.case, Table.filter_insert ht, Ne.symm hj]

theorem insertVerification_writes {v : VerificationReceipt}
    (h : db.insertVerification v = .ok db') (hid : v.operationId = id) :
    Writes db db' id fun c => { c with verifications := c.verifications ++ [v] } := by
  subst hid
  obtain ⟨t, ht, hdb⟩ := bind_eq_ok.mp h
  cases hdb
  refine ⟨eq_modify ?_ ?_, .refl _, fun _ hi => hi⟩
  · simp only [Db.case, Table.filter_insert ht, decide_true, if_true]
  · intro j hj
    simp [Db.case, Table.filter_insert ht, Ne.symm hj]

theorem insertReceipt_writes {x : ExecutionReceipt} (h : db.insertReceipt x = .ok db')
    (hid : x.operationId = id) :
    executionReceiptSchema.check x = true ∧
      Writes db db' id fun c => { c with receipts := c.receipts ++ [x] } := by
  subst hid
  obtain ⟨t, ht, hdb⟩ := bind_eq_ok.mp h
  cases hdb
  refine ⟨Table.insert_checked ht, eq_modify ?_ ?_, .refl _, fun _ hi => hi⟩
  · simp only [Db.case, Table.filter_insert ht, decide_true, if_true]
  · intro j hj
    simp [Db.case, Table.filter_insert ht, Ne.symm hj]

/-- A revocation is stored once per image: the first one stays. -/
theorem insertRevocation_writes {v : Revocation} {inserted : Bool}
    (h : db.insertRevocation v = .ok (db', inserted)) (hid : v.operationId = id) :
    (db' = db ∧ inserted = false ∧ db.isRevoked (some v.imageRef) = true) ∨
    (inserted = true ∧ db.isRevoked (some v.imageRef) = false ∧
      Writes db db' id fun c => { c with revocations := c.revocations ++ [v] }) := by
  subst hid
  unfold Db.insertRevocation at h
  split at h
  · cases h
  · split at h
    next hlook =>
      cases h
      exact .inl ⟨rfl, rfl, hlook⟩
    next hlook =>
      obtain ⟨t, ht, hdb⟩ := bind_eq_ok.mp h
      cases hdb
      refine .inr ⟨rfl, by simpa [Db.isRevoked] using hlook, eq_modify ?_ ?_, .refl _, ?_⟩
      · simp only [Db.case, Table.filter_insert ht, decide_true, if_true]
      · intro j hj
        simp [Db.case, Table.filter_insert ht, Ne.symm hj]
      · intro image hi
        cases image with
        | none => cases hi
        | some image =>
            simp only [Db.isRevoked, Table.lookup_insert ht]
            split
            · rfl
            · exact hi

/-- The session a function has read before is still there, apart from its last
use. -/
theorem touchSession_writes {session : BrowserSession} {db₀ : Db}
    (h : db.touchSession s session = .ok db') (hwrites : Writes db₀ db id f)
    (hsession : session ∈ db₀.identity.sessions.rows) : Writes db db' id fun c => c := by
  obtain ⟨t, ht, hdb⟩ := bind_eq_ok.mp h
  cases hdb
  refine ⟨(modify_id _ _).symm, ⟨rfl, rfl, rfl, fun k => ?_⟩, fun _ hi => hi⟩
  have hread : db₀.identity.sessions.lookup (some session.sessionId) = some session :=
    Table.lookup_eq_some.mpr ⟨hsession, rfl⟩
  show t.lookup (some k) = _ ∨ ∃ v u, _ ∧ t.lookup (some k) = _
  rw [Table.lookup_put ht]
  split
  next hk =>
    have hk : k = session.sessionId := hk
    subst hk
    right
    rcases hwrites.identity.sessions session.sessionId with hsame | ⟨v, u, hv, hnow⟩
    · rw [hread] at hsame
      exact ⟨session, s.now, hsame, by rw [hsame]; rfl⟩
    · rw [hread] at hv
      cases hv
      exact ⟨session.seenAt u, s.now, hnow, by rw [hnow]; rfl⟩
  next => exact .inl rfl

/-- The event a successful append stores carries what it was given. -/
structure Event.From (e : Event) (a : EventArgs) : Prop where
  operationId : e.operationId = a.operationId
  actorRef : a.actorRef = some e.actorRef
  action : e.action = a.action
  targetRef : a.targetRef = some e.targetRef
  evidence : e.evidence = a.evidence

theorem appendEvent_rows
    (h : appendEvent D s db a = .ok db') :
    ∃ e t, db' = { db with events := t } ∧ e.From a ∧ db.events.insert e = .ok t := by
  obtain ⟨e, he, h⟩ := bind_eq_ok.mp h
  obtain ⟨t, ht, hdb⟩ := bind_eq_ok.mp h
  cases hdb
  refine ⟨e, t, rfl, ?_, ht⟩
  simp only [newEvent, bind_eq_ok, notNull_eq_ok, pure_eq_ok] at he
  obtain ⟨correlationId, -, actorRef, ha, targetRef, htarget, rfl⟩ := he
  exact ⟨rfl, ha, rfl, htarget, rfl⟩

theorem appendEvent_writes
    (h : appendEvent D s db a = .ok db') (hid : a.operationId = some id) :
    ∃ e, e.From a ∧ Writes db db' id fun c => { c with events := c.events ++ [e] } := by
  obtain ⟨e, t, rfl, hfrom, ht⟩ := appendEvent_rows h
  have heid : e.operationId = some id := hfrom.operationId.trans hid
  refine ⟨e, hfrom, eq_modify ?_ ?_, .refl _, fun _ hi => hi⟩
  · simp only [Db.case, Table.filter_insert ht, heid, decide_true, if_true]
  · intro j hj
    simp [Db.case, Table.filter_insert ht, heid, Ne.symm hj]

theorem appendEvent_none_writes (id : Uuid)
    (h : appendEvent D s db a = .ok db') (hid : a.operationId = none) :
    Writes db db' id fun c => c := by
  obtain ⟨e, t, rfl, hfrom, ht⟩ := appendEvent_rows h
  have heid : e.operationId = none := hfrom.operationId.trans hid
  refine ⟨?_, .refl _, fun _ hi => hi⟩
  rw [modify_id]
  funext j
  simp [Db.case, Table.filter_insert ht, heid]

theorem deliverAll_writes (h : db.deliverAll s id = .ok db') :
    Writes db db' id fun c => { c with outbox := c.outbox.map fun r =>
      if r.deliveredAt.isNone then r.deliver s else r } := by
  obtain ⟨t, ht, hdb⟩ := bind_eq_ok.mp h
  cases hdb
  have hrows := Table.updateWhere_rows ht
  -- delivering keeps the operation of a row
  have hselect : ∀ (j : Uuid) (r : Outbox),
      decide ((if (decide (r.operationId = id) && r.deliveredAt.isNone) = true then r.deliver s
        else r).operationId = j) = decide (r.operationId = j) := by
    intro j r
    split <;> rfl
  have hfilter : ∀ j, t.rows.filter (fun r => decide (r.operationId = j)) =
      (db.outbox.rows.filter fun r => decide (r.operationId = j)).map fun r =>
        if (decide (r.operationId = id) && r.deliveredAt.isNone) = true then r.deliver s else r := by
    intro j
    rw [hrows, List.filter_map]
    congr 1
    exact List.filter_congr fun r _ => hselect j r
  refine ⟨eq_modify ?_ ?_, .refl _, fun _ hi => hi⟩
  · simp only [Db.case, hfilter id]
    congr 1
    refine List.map_congr_left fun r hr => ?_
    simp [(of_decide_eq_true (List.mem_filter.mp hr).2)]
  · intro j hj
    simp only [Db.case, hfilter j]
    congr 1
    refine (List.map_congr_left fun r hr => ?_).trans (List.map_id _)
    have hrj := of_decide_eq_true (List.mem_filter.mp hr).2
    simp [hrj, hj]

end Statements

end Authority
