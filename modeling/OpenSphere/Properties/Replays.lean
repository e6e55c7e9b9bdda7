import OpenSphere.Properties.Plans

/-!
# Acceptance that is not idempotent

The insertion of an operation names no columns for the duplicates that it ignores, so only a row with the
same primary key is ignored, and that is fresh.  A second operation with the idempotency key of a stored
one is a conflict, which `accept` throws on: the code that returns the stored operation is never reached.
-/

open Sql Js
open System (Program exec_bind_ok exec_await_ok exec_bind_error exec_bind_next exec_relation)

namespace Durable

variable {α : Type} {enabled : Bool} {b : Body} {row : OperationRow} {actor : Actor}

/-! ## Requests that only read -/

def ApiAsk.Reads : ApiAsk → Prop
  | .insertPlan _ => False
  | .consumePlan .. => False
  | .insert _ => False
  | _ => True

theorem reply_reads {e : Reply} {q : ApiAsk} {t : Tables} (hq : q.Reads) : (reply e q t).2 = t := by
  cases q <;> first | rfl | cases hq

section

variable {F : Formats}

theorem checkPlan_reads : (checkPlan F actor b).Keeps ApiAsk.Reads fun _ => True := by
  unfold checkPlan
  refine .seq (Program.keeps_await trivial) fun found => ?_
  split
  · trivial
  · split
    · trivial
    · split
      · trivial
      · refine .seq (Program.keeps_await trivial) fun now => ?_
        split
        · trivial
        · split
          · trivial
          · refine .seq (Program.keeps_await trivial) fun target => ?_
            refine .seq (Program.keeps_lift fun _ _ => trivial) fun replanned => ?_
            refine .seq (Program.keeps_lift fun _ _ => trivial) fun postcondition => ?_
            dsimp only
            split
            · trivial
            · trivial

theorem requestOf_reads : (requestOf F actor b).Keeps ApiAsk.Reads fun _ => True := by
  unfold requestOf
  split
  · refine .seq checkPlan_reads fun _ => ?_
    exact .seq (Program.keeps_lift fun _ _ => trivial) fun _ => trivial
  · exact .seq (Program.keeps_await trivial) fun _ => trivial

theorem requireRecent_reads {bound : Bound} :
    (requireRecent actor bound).Keeps ApiAsk.Reads fun _ => True := by
  unfold requireRecent
  split
  · refine .seq (Program.keeps_await trivial) fun now => ?_
    split
    · trivial
    · trivial
  · trivial

theorem checkDialogue_reads {bound : Bound} :
    (checkDialogue actor b bound).Keeps ApiAsk.Reads fun _ => True := by
  unfold checkDialogue
  split
  · split
    · trivial
    · refine .seq (Program.keeps_await trivial) fun state => ?_
      split
      · trivial
      · split
        · trivial
        · split
          · trivial
          · trivial
  · split
    · trivial
    · trivial

theorem prepare_reads : (prepare F enabled b).Keeps ApiAsk.Reads fun _ => True := by
  unfold prepare
  split
  · trivial
  · refine .seq (Program.keeps_await trivial) fun actor => ?_
    split
    · trivial
    · refine .seq requestOf_reads fun r => .seq (Program.keeps_lift fun _ _ => trivial) fun bound => ?_
      refine .seq requireRecent_reads fun _ => ?_
      split
      · trivial
      · refine .seq checkDialogue_reads fun state => .seq (Program.keeps_await trivial) fun now => ?_
        refine .seq (Program.keeps_lift fun _ _ => trivial) fun deadline => ?_
        refine .seq (Program.keeps_await trivial) fun operationId => ?_
        refine .seq (Program.keeps_lift fun _ _ => trivial) fun postcondition => ?_
        split
        · trivial
        · trivial

theorem prepare_same (es : Nat → Reply) (t : Tables) :
    ((prepare F enabled b).exec reply es t).2 = t := by
  have hsame : t = ((prepare F enabled b).exec reply es t).2 :=
    exec_relation (fun _ => rfl) Eq.trans (fun _ _ _ hq => (reply_reads hq).symm) prepare_reads es t
  exact hsame.symm

/-! ## The row of a request -/

def Body.key (b : Body) : String := if b.planId ≠ "" then b.planId else trim b.idempotencyKey

variable {es : Nat → Reply} {t t' : Tables}

theorem requestOf_stored {r : Requested}
    (h : (requestOf F actor b).exec reply es t = (.ok r, t')) : keyOf b r.stored = b.key := by
  unfold requestOf at h
  unfold Body.key
  split at h
  next hplan =>
    obtain ⟨⟨stored, target⟩, _, _, hcheck, hrest⟩ := exec_bind_ok h
    obtain ⟨reason, _, _, -, hreturn⟩ := exec_bind_ok hrest
    cases hreturn
    obtain ⟨hfound, -⟩ := checkPlan_ok hcheck
    rw [if_pos hplan]
    have hid := List.find?_some hfound
    exact of_decide_eq_true hid
  next hplan =>
    obtain ⟨target, _, _, -, hreturn⟩ := exec_bind_ok h
    cases hreturn
    rw [if_neg hplan]
    rfl

theorem randomUUID_ok {id : Uuid} (h : (ask .randomUUID).exec reply es t = (.ok id, t')) :
    id = (es 0).uuid :=
  (Except.ok.inj (congrArg Prod.fst (exec_await_ok h))).symm

/-- The row that is inserted has the key of the request, and one of the answers as its id. -/
theorem prepare_row {stored : Option PlanRow}
    (h : (prepare F enabled b).exec reply es t = (.ok (row, stored), t')) :
    row.idempotencyKey = b.key ∧ ∃ n, row.operationId = (es n).uuid := by
  unfold prepare at h
  split at h
  · cases h
  · obtain ⟨actor, _, _, -, hactor⟩ := exec_bind_ok h
    clear h
    split at hactor
    · cases hactor
    · obtain ⟨r, _, _, hr, hrequest⟩ := exec_bind_ok hactor
      obtain ⟨bound, _, _, -, hbound⟩ := exec_bind_ok hrequest
      obtain ⟨_, _, _, -, hrecent⟩ := exec_bind_ok hbound
      clear hactor hrequest hbound
      split at hrecent
      · cases hrecent
      · obtain ⟨state, _, _, -, hstate⟩ := exec_bind_ok hrecent
        obtain ⟨now, _, _, -, hnow⟩ := exec_bind_ok hstate
        obtain ⟨deadline, _, _, -, hdeadline⟩ := exec_bind_ok hnow
        obtain ⟨operationId, _, _, hid, hrest⟩ := exec_bind_ok hdeadline
        obtain ⟨postcondition, _, _, -, hlast⟩ := exec_bind_ok hrest
        clear hrecent hstate hnow hdeadline hrest
        split at hlast
        · cases hlast
        · cases hlast
          have huuid := randomUUID_ok hid
          exact ⟨requestOf_stored hr, _, huuid⟩

/-! ## Stored operations -/

def Tables.Taken (t : Tables) (key : String) : Prop := ∃ o ∈ t.operations, o.idempotencyKey = key

theorem insert_taken (hkey : t.Taken row.idempotencyKey)
    (hfresh : ∀ o ∈ t.operations, o.operationId ≠ row.operationId) :
    t.insert row = (.error (conflict "module_operation"), t) := by
  obtain ⟨o, ho, hsame⟩ := hkey
  unfold Tables.insert
  rw [if_neg, if_pos (List.any_eq_true.mpr ⟨o, ho, decide_eq_true hsame⟩)]
  rintro h
  obtain ⟨o', ho', hid⟩ := List.any_eq_true.mp h
  exact hfresh o' ho' (of_decide_eq_true hid)

theorem ask_insert_taken (es : Nat → Reply)
    (h : t.insert row = (.error (conflict "module_operation"), t)) :
    ∃ e, (ask (.insert row)).exec reply es t = (.error e, t) := by
  have hreply : ∃ e, reply (es 0) (.insert row) t = (.error e, t) := by
    show ∃ e, (es 0).database t (t.insert row) = _
    rw [h]
    unfold Reply.database
    split
    · exact ⟨_, rfl⟩
    · dsimp only
      rw [ite_self]
      exact ⟨_, rfl⟩
  obtain ⟨e, he⟩ := hreply
  refine ⟨e, ?_⟩
  show Program.exec reply _ _ (reply (es 0) (.insert row) t).2 = _
  rw [he]
  rfl

def Tables.Grows (t u : Tables) : Prop := ∀ o ∈ t.operations, o ∈ u.operations

theorem insert_grows (row : OperationRow) (t : Tables) : t.Grows (t.insert row).2 := by
  intro o ho
  unfold Tables.insert
  split
  · exact ho
  · split
    · exact ho
    · exact List.mem_append_left _ ho

theorem insertPlan_grows (row : PlanRow) (t : Tables) : t.Grows (t.insertPlan row).2 := by
  intro o ho
  unfold Tables.insertPlan
  split
  · exact ho
  · exact ho

theorem database_grows {e : Reply} {x : Except Refusal α × Tables} (h : t.Grows x.2) :
    t.Grows (e.database t x).2 := by
  unfold Reply.database
  split
  · exact h
  · dsimp only
    split
    · exact h
    · exact fun o ho => ho

theorem reply_grows (e : Reply) (q : ApiAsk) (t : Tables) : t.Grows (reply e q t).2 := by
  cases q with
  | insertPlan row => exact database_grows (insertPlan_grows row t)
  | consumePlan id operationId => exact database_grows fun o ho => ho
  | insert row => exact database_grows (insert_grows row t)
  | _ => exact fun o ho => ho

theorem exec_grows (p : Api α) (es : Nat → Reply) (t : Tables) : t.Grows (p.exec reply es t).2 :=
  exec_relation (fun _ _ ho => ho) (fun h h' o ho => h' o (h o ho)) (fun e q t _ => reply_grows e q t)
    p.keeps_any es t

theorem grows_of_exec {p : Api α} {x : Except Refusal α} (h : p.exec reply es t = (x, t')) :
    t.Grows t' := by
  have hgrows := exec_grows p es t
  rw [h] at hgrows
  exact hgrows

theorem insert_stored {operation : OperationRow} (h : (insert row).exec reply es t = (.ok operation, t')) :
    operation ∈ t'.operations ∧ operation.idempotencyKey = row.idempotencyKey := by
  unfold Durable.insert at h
  obtain ⟨stored, _, _, hstored, hrest⟩ := exec_bind_ok h
  have hinsert := database_ok (exec_await_ok hstored)
  split at hrest
  · cases hrest
    unfold Tables.insert at hinsert
    split at hinsert
    · cases hinsert
    · split at hinsert
      · cases hinsert
      · cases hinsert
        exact ⟨List.mem_append_right _ List.mem_cons_self, rfl⟩
  · obtain ⟨found, _, _, hfound, hlast⟩ := exec_bind_ok hrest
    have hreply := exec_await_ok hfound
    split at hlast
    · cases hlast
    · split at hlast
      · cases hlast
      · cases hlast
        obtain rfl := congrArg Prod.snd hreply
        have hsome := service_ok (congrArg Prod.fst hreply)
        have hkey := List.find?_some hsome
        exact ⟨List.mem_of_find?_eq_some hsome, of_decide_eq_true hkey⟩

theorem accept_stored {operation : OperationRow}
    (h : (accept F enabled b).exec reply es t = (.ok operation, t')) : t'.Taken b.key := by
  unfold accept at h
  obtain ⟨⟨row, stored⟩, _, _, hprepare, hinsert⟩ := exec_bind_ok h
  obtain ⟨operation', _, s', hoperation, hlast⟩ := exec_bind_ok hinsert
  obtain ⟨hkey, -⟩ := prepare_row hprepare
  obtain ⟨hmem, hsame⟩ := insert_stored hoperation
  exact ⟨operation', grows_of_exec hlast operation' hmem, hsame.trans hkey⟩

theorem accept_taken (hkey : t.Taken b.key)
    (hfresh : ∀ n, ∀ o ∈ t.operations, o.operationId ≠ (es n).uuid) :
    ∃ e, (accept F enabled b).exec reply es t = (.error e, t) := by
  cases hp : (prepare F enabled b).exec reply es t with
  | mk r s' =>
      obtain rfl : s' = t := (congrArg Prod.snd hp).symm.trans (prepare_same es t)
      cases r with
      | error e => exact ⟨e, exec_bind_error hp _⟩
      | ok x =>
          obtain ⟨hrowKey, n, hid⟩ := prepare_row hp
          obtain ⟨k, hnext⟩ := exec_bind_next hp _
          have hinsert := insert_taken (hrowKey.symm ▸ hkey) fun o ho => hid ▸ hfresh n o ho
          obtain ⟨e, hrefused⟩ := ask_insert_taken (fun n => es (n + k)) hinsert
          exact ⟨e, hnext.trans (exec_bind_error (exec_bind_error hrefused _) _)⟩

end

/-! ## Sequences of requests -/

/-- A request to accept an operation, with what its requests are answered. -/
structure Call where
  body : Body
  replies : Nat → Reply

section

variable (F : Formats)

def Call.serve (c : Call) (t : Tables) : Except Refusal OperationRow × Tables :=
  (accept F true c.body).exec reply c.replies t

def serveAll (cs : List Call) (t : Tables) : Tables := cs.foldl (fun t c => (c.serve F t).2) t

end

theorem serveAll_nil (F : Formats) (t : Tables) : serveAll F [] t = t := rfl

theorem serveAll_grows {F : Formats} (cs : List Call) (t : Tables) : t.Grows (serveAll F cs t) := by
  induction cs generalizing t with
  | nil => exact fun o ho => ho
  | cons c cs ih => exact fun o ho => ih _ o (exec_grows _ _ _ o ho)

/-! ## A restart that is asked for twice -/

namespace Demo

def console : Resolved :=
  { kind := "Deployment", namespace' := "opensphere-console", name := "console",
    uid := "0d7e5a0c-6d1b-4b53-8f6b-0f9a3f4d7c21", generation := some "9",
    resourceVersion := some "4711", desiredRevision := none, digest := none, image := none,
    container := none, replicas := none, request := none }

def restartBody : Body :=
  { planBody with
    action := "restart-workload"
    target := .ofList [("namespace", .string "opensphere-console"), ("name", .string "console")]
    reason := "restart after a leak"
    confirmation := "restart deployment opensphere-console/console"
    idempotencyKey := "restart-0001" }

def restartCall (uuid : Uuid) : Call where
  body := restartBody
  replies _ := { answered with resolved := console, uuid }

def restartHashed : List (List Char × String) :=
  [(((descriptors "restart-workload").map fun d => stableJson d.value).getD [],
      "041c368b6ee4f25285ee5b8d0124f7835b9dbb9b1177435b4c4e99cc8be3abca"),
    (stableJson console.value,
      "6266ed77029bd9c2f0239d19014947b07b017fb21679f912a6502ff490de2aa3"),
    (stableJson (.string "restart deployment opensphere-console/console"),
      "f99aa9970f853c22478398aef1c4863635c6e2b43994ca60dbe2a920f9d2a6e7")]

def restartFormats : Formats := { formats with hash := hashIn restartHashed }

/-- The request, and the same request once more. -/
def first : Call := restartCall ⟨0x550e8400e29b41d4a716446655440000⟩

def second : Call := restartCall ⟨0x7d444840d0d14a4f8e4b5b1f0c6a1e22⟩

def firstRun : Except Refusal OperationRow × Tables := first.serve restartFormats ⟨[], []⟩

theorem firstRun_ok : firstRun.1.isOk = true ∧ firstRun.2.operations.map OperationRow.operationId =
    [⟨0x550e8400e29b41d4a716446655440000⟩] := by decide +kernel

theorem second_fresh (n : ℕ) : ∀ o ∈ firstRun.2.operations, o.operationId ≠ (second.replies n).uuid := by
  intro o ho hid
  have hmem : o.operationId ∈ firstRun.2.operations.map OperationRow.operationId :=
    List.mem_map_of_mem ho
  have huuid : (second.replies n).uuid = ⟨0x7d444840d0d14a4f8e4b5b1f0c6a1e22⟩ := rfl
  rw [firstRun_ok.2, hid, huuid] at hmem
  exact absurd hmem (by decide)

theorem exec_of_isOk {x : Except Refusal α × Tables} (h : x.1.isOk = true) :
    ∃ y, x = (.ok y, x.2) := by
  obtain ⟨r, t⟩ := x
  cases r with
  | error e => cases h
  | ok y => exact ⟨y, rfl⟩

end Demo

/-- After a request that succeeds every other one with its key is refused, and changes nothing. -/
theorem replay_refused (F : Formats) {t t' : Tables} {c : Call} {operation : OperationRow}
    (hfirst : c.serve F t = (.ok operation, t')) (cs : List Call) {d : Call}
    (hkey : d.body.key = c.body.key)
    (hfresh : ∀ n, ∀ o ∈ (serveAll F cs t').operations, o.operationId ≠ (d.replies n).uuid) :
    ∃ e, d.serve F (serveAll F cs t') = (.error e, serveAll F cs t') := by
  obtain ⟨o, ho, hsame⟩ := accept_stored hfirst
  exact accept_taken ⟨o, serveAll_grows cs t' o ho, hsame.trans hkey.symm⟩ hfresh

theorem restart_refused : ∃ operation t', Demo.first.serve Demo.restartFormats ⟨[], []⟩ = (.ok operation, t') ∧
    ∃ e, Demo.second.serve Demo.restartFormats t' = (.error e, t') := by
  obtain ⟨operation, hfirst⟩ := Demo.exec_of_isOk Demo.firstRun_ok.1
  refine ⟨operation, Demo.firstRun.2, hfirst, replay_refused Demo.restartFormats hfirst [] rfl ?_⟩
  rw [serveAll_nil]
  exact Demo.second_fresh

/-- An equal request for a restart does not return the operation that is stored. -/
theorem restart_conflict : ∃ operation t',
    Demo.first.serve Demo.restartFormats ⟨[], []⟩ = (.ok operation, t') ∧
    Demo.second.body = Demo.first.body ∧
    ∀ same, (Demo.second.serve Demo.restartFormats t').1 ≠ .ok same := by
  obtain ⟨operation, hfirst⟩ := Demo.exec_of_isOk Demo.firstRun_ok.1
  obtain ⟨e, hrefused⟩ : ∃ e, Demo.second.serve Demo.restartFormats Demo.firstRun.2 =
      (.error e, Demo.firstRun.2) :=
    accept_taken (accept_stored hfirst) Demo.second_fresh
  refine ⟨operation, Demo.firstRun.2, hfirst, rfl, fun same hsame => ?_⟩
  rw [hrefused] at hsame
  cases hsame

end Durable
