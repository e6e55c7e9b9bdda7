import OpenSphere.Durable.Plans
import OpenSphere.System.Alone

/-!
# Plans that nobody can accept

The digest of a plan is taken over the text that `toISOString` gives its expiry, which ends with a Z, and
is recomputed over the text in which the store returns it, which has a numeric offset.  Since nothing
else of the document can make up for it, `accept` refuses every plan that was shown.
-/

open Sql Js
open PlatformChange (isoText)
open System (exec_bind_ok exec_await_ok exec_await_bind exec_bind_error exec_lift_bind exec_lift_ok)

namespace Durable

variable {row : PlanRow} {planned : Planned} {action : String} {b : Body} {α : Type} {e : Reply}

/-! ## Digests of plans -/

theorem digest_injective {hash : List Char → String} (hhash : Function.Injective hash) {x y : Value}
    (h : digest hash x = digest hash y) : stableJson x = stableJson y :=
  hhash (String.ext (List.append_cancel_left ((String.toList_append ..).symm.trans
    ((congrArg String.toList h).trans (String.toList_append ..)))))

theorem expiresAt_of_text {actorId descriptorDigest : String} {target payload postcondition : Value}
    {actorId' action' descriptorDigest' : String} {target' payload' postcondition' : Value} {s t : String}
    (h : stableJson (planDocument actorId action descriptorDigest target payload postcondition s) =
      stableJson (planDocument actorId' action' descriptorDigest' target' payload' postcondition' t)) :
    s = t :=
  string_of_text "expiresAt" h rfl rfl

theorem last_isoText (t : Int) : (chars (isoText t)).getLast? = some 'Z' := by
  unfold isoText
  dsimp only
  rw [chars_ofList, List.getLast?_concat]

/-! ## Runs of the API -/

section

variable {F : Formats} {es : Nat → Reply} {t t' : Tables}

theorem planOperation_ok {hash : List Char → String} {bindingDigest : String} {r : Resolved}
    {p : Planned} (h : planOperation hash action r bindingDigest = .ok p) :
    ∃ d confirmation, descriptors action = some d ∧ exactConfirmation d r bindingDigest = .ok confirmation ∧
      p = ⟨action, d, digest hash d.value, confirmation, r⟩ := by
  unfold planOperation at h
  split at h
  · cases h
  next d hd =>
    obtain ⟨-, -, h⟩ := bind_eq_ok.mp h
    split at h
    · cases h
    · split at h
      · cases h
      · obtain ⟨-, -, h⟩ := bind_eq_ok.mp h
        obtain ⟨confirmation, hconfirmation, h⟩ := bind_eq_ok.mp h
        exact ⟨d, confirmation, hd, hconfirmation, (Except.ok.inj h).symm⟩

theorem service_ok {x y : α} (h : e.service x = .ok y) : x = y := by
  unfold Reply.service at h
  split at h
  · exact Except.ok.inj h
  · cases h

theorem getPlan_ok {id : String} {found : Option PlanRow}
    (h : (ask (.getPlan id)).exec reply es t = (.ok found, t')) :
    (t.plans.find? fun p => p.planId = id) = found ∧ t = t' := by
  have hreply := exec_await_ok h
  exact ⟨service_ok (congrArg Prod.fst hreply), congrArg Prod.snd hreply⟩

theorem checkPlan_ok {actor : Actor} {stored : PlanRow} {r : Resolved}
    (h : (checkPlan F actor b).exec reply es t = (.ok (stored, r), t')) :
    (t.plans.find? fun p => p.planId = b.planId) = some stored ∧
      ∃ action descriptorDigest target payload postcondition,
        digest F.hash (planDocument actor.actorId action descriptorDigest target payload postcondition
          (F.timestamptz stored.expiresAt)) = stored.planDigest := by
  obtain ⟨found, _, _, hget, hfound⟩ := exec_bind_ok h
  obtain ⟨hplan, -⟩ := getPlan_ok hget
  clear h hget
  cases found with
  | none => cases hfound
  | some row =>
      dsimp only at hfound
      split at hfound
      · cases hfound
      · split at hfound
        · cases hfound
        · obtain ⟨_, _, _, -, hnow⟩ := exec_bind_ok hfound
          split at hnow
          · cases hnow
          · split at hnow
            · cases hnow
            · obtain ⟨target, _, _, -, htarget⟩ := exec_bind_ok hnow
              obtain ⟨replanned, _, _, -, hreplanned⟩ := exec_bind_ok htarget
              obtain ⟨postcondition, _, _, -, hpostcondition⟩ := exec_bind_ok hreplanned
              split at hpostcondition
              · cases hpostcondition
              next hsame =>
                cases hpostcondition
                simp only [Bool.or_eq_true, decide_eq_true_eq, not_or, not_not] at hsame
                exact ⟨hplan, _, _, _, _, _, hsame.1⟩

/-- What is inserted for a plan has passed the check of the plan. -/
theorem prepare_ok {enabled : Bool} {row : OperationRow} {stored : Option PlanRow}
    (hplan : b.planId ≠ "") (h : (prepare F enabled b).exec reply es t = (.ok (row, stored), t')) :
    ∃ p actorId action descriptorDigest target payload postcondition,
      (t.plans.find? fun p => p.planId = b.planId) = some p ∧
        digest F.hash (planDocument actorId action descriptorDigest target payload postcondition
          (F.timestamptz p.expiresAt)) = p.planDigest := by
  unfold prepare at h
  split at h
  · cases h
  · obtain ⟨actor, k, t₁, hauth, h⟩ := exec_bind_ok h
    obtain rfl : t = t₁ := congrArg Prod.snd (exec_await_ok hauth)
    split at h
    · cases h
    · obtain ⟨r, k, t₂, hrequest, -⟩ := exec_bind_ok h
      unfold requestOf at hrequest
      rw [if_pos hplan] at hrequest
      obtain ⟨⟨p, target⟩, k, t₃, hcheck, -⟩ := exec_bind_ok hrequest
      obtain ⟨hfound, action, descriptorDigest, target, payload, postcondition, hdigest⟩ := checkPlan_ok hcheck
      exact ⟨p, _, action, descriptorDigest, target, payload, postcondition, hfound, hdigest⟩

theorem database_ok {x : Except Refusal α × Tables} {y : α}
    (h : e.database t x = (.ok y, t')) : x = (.ok y, t') := by
  unfold Reply.database at h
  split at h
  · exact h
  · cases h

theorem insertPlan_ok {stored : Option PlanRow}
    (h : t.insertPlan row = (.ok stored, t')) : (t'.plans.find? fun p => p.planId = row.planId) = some row := by
  unfold Tables.insertPlan at h
  split at h
  · cases h
  next hnew =>
    cases h
    rw [List.find?_append, List.find?_eq_none.mpr fun p hp hid => hnew (List.any_eq_true.mpr ⟨p, hp, hid⟩)]
    simp

theorem database_answered {x : Except Refusal α × Tables} (h : e.failure = none) :
    e.database t x = x := by
  rw [Reply.database, h]

theorem insertPlan_new (hnew : ∀ p ∈ t.plans, p.planId ≠ row.planId) :
    t.insertPlan row = (.ok (some row), { t with plans := t.plans ++ [row] }) := by
  rw [Tables.insertPlan, if_neg]
  rintro h
  obtain ⟨p, hp, hid⟩ := List.any_eq_true.mp h
  exact hnew p hp (of_decide_eq_true hid)

theorem plan_ok {postcondition : Value} {shown : Shown}
    (h : (plan F b).exec reply es t = (.ok (planned, postcondition, some shown), t')) :
    ∃ row, (t'.plans.find? fun p => p.planId = shown.planId) = some row ∧ shown.planId ≠ "" ∧
      row.planDigest = shown.planDigest ∧
      planOperation F.hash row.action planned.target "" = .ok planned ∧
      expectedPostcondition planned = .ok postcondition ∧
      ∃ actorId action descriptorDigest target payload,
        digest F.hash (planDocument actorId action descriptorDigest target payload postcondition
          (isoText row.expiresAt)) = row.planDigest := by
  unfold plan at h
  obtain ⟨actor, _, _, -, hactor⟩ := exec_bind_ok h
  obtain ⟨r, _, _, -, hresolved⟩ := exec_bind_ok hactor
  obtain ⟨p, _, _, hp, hplanned⟩ := exec_bind_ok hresolved
  obtain ⟨post, _, _, hpost, hrest⟩ := exec_bind_ok hplanned
  clear h hactor hresolved hplanned
  obtain ⟨hp, -⟩ := exec_lift_ok hp
  obtain ⟨hpost, -⟩ := exec_lift_ok hpost
  obtain ⟨d, c, -, -, hd⟩ := planOperation_ok hp
  split at hrest
  · cases hrest
  · split at hrest
    · cases hrest
    · obtain ⟨now, _, _, -, hnow⟩ := exec_bind_ok hrest
      obtain ⟨uuid, _, _, -, huuid⟩ := exec_bind_ok hnow
      clear hrest hnow
      dsimp only at huuid
      split at huuid
      · cases huuid
      · obtain ⟨confirmation, _, _, -, hconfirmation⟩ := exec_bind_ok huuid
        clear huuid
        split at hconfirmation
        · obtain ⟨stored, _, _, hinsert, hstored⟩ := exec_bind_ok hconfirmation
          clear hconfirmation
          split at hstored
          · cases hstored
          · cases hstored
            refine ⟨_, insertPlan_ok (database_ok (exec_await_ok hinsert)), by simp, rfl, ?_, hpost,
              _, _, _, _, _, rfl⟩
            show planOperation F.hash planned.action planned.target "" = .ok planned
            rw [hd] at hp ⊢
            exact hp
        · cases hconfirmation

/-- A plan of a cluster that passes every check is stored and shown. -/
theorem plan_shown {postcondition : Value}
    {actorId authSessionId : Uuid} (haction : b.action = "create-postgres-cluster")
    (hanswered : ∀ n, (es n).failure = none)
    (hplanned : planOperation F.hash b.action (es 1).resolved "" = .ok planned)
    (hpostcondition : expectedPostcondition planned = .ok postcondition)
    (hactor : castUuid (es 0).actor.actorId = some actorId)
    (hsession : castUuid (es 0).actor.authSessionId = some authSessionId)
    (hactorFormat : Command.uuidFormat (es 0).actor.actorId = true)
    (hsessionFormat : Command.uuidFormat (es 0).actor.authSessionId = true)
    (hreason : 8 ≤ Js.length (trim b.reason))
    (hnew : ∀ p ∈ t.plans, p.planId ≠ "pgplan-" ++ (es 3).uuid.text)
    (hconfirmation : ∀ planDigest, ∃ c, operationConfirmation planned planDigest = .ok c) :
    ∃ confirmation row, (plan F b).exec reply es t = (.ok (planned, postcondition, some {
        planId := "pgplan-" ++ (es 3).uuid.text
        planDigest := digest F.hash (planDocument (es 0).actor.actorId planned.action planned.descriptorDigest
          planned.target.value (.ofList [("action", .string planned.action), ("target", b.targetOr),
            ("reason", .string (trim b.reason))]) postcondition (isoText ((es 2).now + quarterHour)))
        expectedConfirmation := confirmation
        expiresAt := isoText ((es 2).now + quarterHour)
        targetRevision := planned.target.resourceVersion.getD "" }), { t with plans := t.plans ++ [row] }) ∧
      row.actorId = actorId ∧ row.authSessionId = authSessionId ∧
      row.expiresAt = (es 2).now + quarterHour := by
  have hservice {α : Type} (n : Nat) (x : α) : (es n).service x = .ok x := by
    rw [Reply.service, hanswered]
  obtain ⟨confirmation, hconfirmation⟩ := hconfirmation (digest F.hash (planDocument (es 0).actor.actorId
    planned.action planned.descriptorDigest planned.target.value (.ofList [("action", .string planned.action),
      ("target", b.targetOr), ("reason", .string (trim b.reason))]) postcondition
      (isoText ((es 2).now + quarterHour))))
  obtain ⟨d, c, -, -, hd⟩ := planOperation_ok hplanned
  have hplannedAction : planned.action = "create-postgres-cluster" := by rw [hd, haction]
  refine ⟨confirmation, ?row, ?run, ?actor, ?session, ?expires⟩
  case run =>
    unfold plan
    refine (exec_await_bind (x := (es 0).actor) (Prod.ext (hservice 0 _) rfl)).trans ?_
    refine (exec_await_bind (x := (es 1).resolved) (Prod.ext (hservice 1 _) rfl)).trans ?_
    refine (exec_lift_bind hplanned).trans ((exec_lift_bind hpostcondition).trans ?_)
    rw [if_neg (not_not.mpr hplannedAction), if_neg (by rw [hactorFormat, hsessionFormat]; simp)]
    refine (exec_await_bind (x := (es 2).now) rfl).trans ?_
    refine (exec_await_bind (x := (es 3).uuid) rfl).trans ?_
    dsimp only
    rw [if_neg (not_lt.mpr hreason)]
    refine (exec_lift_bind hconfirmation).trans ?_
    rw [hactor, hsession]
    dsimp only
    refine (exec_await_bind ((database_answered (hanswered 4)).trans (insertPlan_new ?_))).trans ?_
    · exact hnew
    · rfl
  all_goals rfl

theorem digest_changed (hhash : Function.Injective F.hash)
    (hoffset : ∀ n, (chars (F.timestamptz n)).getLast? ≠ some 'Z')
    {actorId descriptorDigest : String} {target payload postcondition : Value}
    {actorId' action' descriptorDigest' : String} {target' payload' postcondition' : Value} (n : Int) :
    digest F.hash (planDocument actorId action descriptorDigest target payload postcondition
        (F.timestamptz n)) ≠
      digest F.hash (planDocument actorId' action' descriptorDigest' target' payload' postcondition'
        (isoText n)) := by
  intro h
  apply hoffset n
  rw [expiresAt_of_text (digest_injective hhash h)]
  exact last_isoText n

/-- The rejection of a plan whose document has another digest. -/
def changed : Refusal := .http 409 none "durable plan target revision changed; create a new plan"

/-- A plan that passes every other check of its actor is rejected for its digest. -/
theorem accept_changed {a : Body} {postcondition : Value}
    (hanswered : ∀ n, (es n).failure = none) (hrow : (t.plans.find? fun p => p.planId = a.planId) = some row)
    (hplan : a.planId ≠ "") (hactor : row.actorId.text = (es 0).actor.actorId)
    (hsession : row.authSessionId.text = (es 0).actor.authSessionId)
    (hactorFormat : Command.uuidFormat row.actorId.text = true)
    (hsessionFormat : Command.uuidFormat row.authSessionId.text = true)
    (hnow : (es 2).now < row.expiresAt) (hdigest : a.planDigest = row.planDigest)
    (hformat : Command.revisionFormat row.planDigest = true)
    (hplanned : planOperation F.hash row.action (es 3).resolved "" = .ok planned)
    (hpostcondition : expectedPostcondition planned = .ok postcondition)
    (hchanged : ∀ actorId action descriptorDigest target payload postcondition,
      digest F.hash (planDocument actorId action descriptorDigest target payload postcondition
        (F.timestamptz row.expiresAt)) ≠ row.planDigest) :
    (accept F true a).exec reply es t = (.error changed, t) := by
  have hservice {α : Type} (n : Nat) (x : α) : (es n).service x = .ok x := by
    rw [Reply.service, hanswered]
  have hcheck : (checkPlan F (es 0).actor a).exec reply (fun n => es (n + 1)) t = (.error changed, t) := by
    unfold checkPlan
    refine (exec_await_bind (x := some row) (Prod.ext ?_ rfl)).trans ?_
    · show (es 1).service (t.plans.find? fun p => p.planId = a.planId) = _
      rw [hservice, hrow]
    dsimp only
    rw [if_neg (not_not.mpr hactor), if_neg (by rw [← hsession, hsessionFormat]; simp)]
    refine (exec_await_bind (x := (es 2).now) rfl).trans ?_
    rw [if_neg (not_le.mpr hnow), if_neg (by rw [hdigest, hformat]; simp)]
    refine (exec_await_bind (x := (es 3).resolved) (Prod.ext (hservice 3 _) rfl)).trans ?_
    refine (exec_lift_bind hplanned).trans ((exec_lift_bind hpostcondition).trans ?_)
    rw [if_pos (by rw [Bool.or_eq_true]; exact .inl (decide_eq_true (hchanged _ _ _ _ _ _)))]
    rfl
  have hprepare : (prepare F true a).exec reply es t = (.error changed, t) := by
    unfold prepare
    rw [if_neg (by simp)]
    refine (exec_await_bind (x := (es 0).actor) (Prod.ext (hservice 0 _) rfl)).trans ?_
    rw [if_neg (by rw [← hactor, hactorFormat]; simp)]
    refine exec_bind_error ?_ _
    unfold requestOf
    rw [if_pos hplan]
    exact exec_bind_error hcheck _
  exact exec_bind_error hprepare _

end

/-! ## A plan of a cluster -/

namespace Demo

def clusterRequest : Value :=
  .ofList [("name", .string "orders"), ("namespace", .string "opensphere-foundation"),
    ("alias", .string "Orders"), ("database", .string "orders"), ("owner", .string "orders"),
    ("plan", .string "postgresql-dev-single"), ("postgresVersion", .string "18.4"),
    ("deletionPolicy", .string "Retain")]

/-- The request as `jsonb` returns it. -/
def storedRequest : Value :=
  .ofList [("name", .string "orders"), ("plan", .string "postgresql-dev-single"),
    ("alias", .string "Orders"), ("owner", .string "orders"), ("database", .string "orders"),
    ("namespace", .string "opensphere-foundation"), ("deletionPolicy", .string "Retain"),
    ("postgresVersion", .string "18.4")]

def cluster : Resolved :=
  { kind := "FoundationClaim", namespace' := "opensphere-foundation", name := "orders",
    uid := "6f1c2a9e-4d53-4c8f-9a70-2f5f0c3b1d11", generation := some "0",
    resourceVersion := some "4711:4712", desiredRevision := none, digest := none, image := none,
    container := none, replicas := none, request := some clusterRequest }

def administrator : String := "1b4e28ba-2fa1-4d3b-a3f5-ef19b5a7633b"

def answered : Reply where
  effect := true
  failure := none
  actor := {
    actorId := administrator
    authSessionId := "7c9e6679-7425-40de-944b-e07fc1f90ae7"
    assurance := "aal2"
    reauthenticatedAt := some 1767225600000
    authzRevision := "1" }
  now := 1767225600000
  uuid := ⟨0x550e8400e29b41d4a716446655440000⟩
  resolved := cluster
  projection := some {
    stateDigest := some "sha256:8f602a02f8ae293d59eda52c3f5aac16fd70dc74cfd78df297865a692e9beb0a"
    domain := "pfss.postgresql"
    intent := "create.plan"
    phase := "plan_ready"
    targetNamespace := "opensphere-foundation"
    targetName := "orders"
    revision := "4" }

def planBody : Body where
  action := "create-postgres-cluster"
  target := clusterRequest
  reason := "database for orders"
  confirmation := ""
  bindingDigest := ""
  planId := ""
  planDigest := ""
  idempotencyKey := ""
  dialogueStateDigest := ""
  conversationId := ""
  deadlineMs := some 600000
  incidentId := ""

def acceptBody (shown : Shown) : Body :=
  { planBody with
    planId := shown.planId
    planDigest := shown.planDigest
    confirmation := shown.expectedConfirmation
    dialogueStateDigest := "sha256:8f602a02f8ae293d59eda52c3f5aac16fd70dc74cfd78df297865a692e9beb0a"
    conversationId := "9b2d6c1e-58c7-4c1a-8f0e-3f6f3a0f2c55" }

def payload (request : Value) : Value :=
  .ofList [("action", .string "create-postgres-cluster"), ("target", request),
    ("reason", .string "database for orders")]

def postcondition : Value :=
  .ofList [("verifierId", .string "owner.foundation.postgres.ready"), ("targetUid", .string cluster.uid),
    ("foundationClaim", .ofList [("phase", .string "Bound"), ("observedGenerationMatches", .boolean true)]),
    ("postgresClaim", .ofList [("ready", .boolean true), ("observedGenerationMatches", .boolean true)]),
    ("sgClusterReady", .boolean true), ("bindingSecretIssued", .boolean true)]

def documentText (request : Value) (expiresAt : String) : List Char :=
  stableJson (planDocument administrator "create-postgres-cluster"
    "sha256:8f602a02f8ae293d59eda52c3f5aac16fd70dc74cfd78df297865a692e9beb0a" cluster.value (payload request)
    postcondition expiresAt)

def hashed : List (List Char × String) :=
  [(((descriptors "create-postgres-cluster").map fun d => stableJson d.value).getD [],
      "8f602a02f8ae293d59eda52c3f5aac16fd70dc74cfd78df297865a692e9beb0a"),
    (documentText clusterRequest "2026-01-01T00:15:00.000Z",
      "f71053ef354523048094a6d2fc333d5297c7de3ca0ddf0e636ebed5a1659bc3b"),
    (documentText storedRequest "2026-01-01T00:15:00+00:00",
      "b82093ec1557aca366dfc8fa65202e40ff09e170fb390cd71bf33afd5249e735")]

def hashIn (table : List (List Char × String)) (text : List Char) : String :=
  (table.lookup text).getD (String.ofList ('x' :: text))

theorem hashIn_injective {table : List (List Char × String)}
    (hvalues : (table.map Prod.snd).Nodup)
    (hform : ∀ p ∈ table, (chars p.2).head? ≠ some 'x') : Function.Injective (hashIn table) := by
  have hmem {text : List Char} {h : String} (hlookup : table.lookup text = some h) : (text, h) ∈ table := by
    obtain ⟨l, r, rfl, -⟩ := List.lookup_eq_some_iff.mp hlookup
    exact List.mem_append_right _ List.mem_cons_self
  intro x y h
  unfold hashIn at h
  cases hx : table.lookup x with
  | none =>
      cases hy : table.lookup y with
      | none =>
          rw [hx, hy] at h
          exact (List.cons.inj (String.ofList_injective h)).2
      | some b =>
          rw [hx, hy] at h
          refine absurd ?_ (hform _ (hmem hy))
          show (chars b).head? = _
          rw [← show _ = b from h, Option.getD_none, chars_ofList]
          rfl
  | some a =>
      cases hy : table.lookup y with
      | none =>
          rw [hx, hy] at h
          refine absurd ?_ (hform _ (hmem hx))
          show (chars a).head? = _
          rw [show a = _ from h, Option.getD_none, chars_ofList]
          rfl
      | some b =>
          rw [hx, hy] at h
          exact congrArg Prod.fst (List.inj_on_of_nodup_map hvalues (hmem hx) (hmem hy) h)

/-- The form of PostgREST for a time, which has no zeros at the end of a fraction. -/
def offsetText (n : Int) : String :=
  String.ofList (((((chars (isoText n)).dropLast.reverse.dropWhile (· = '0')).dropWhile (· = '.')).reverse) ++
    ['+', '0', '0', ':', '0', '0'])

def formats : Formats where
  hash := hashIn hashed
  jsonb x := if x.stringify = (payload clusterRequest).stringify then payload storedRequest else x
  timestamptz := offsetText

theorem offsetText_last (n : Int) : (chars (offsetText n)).getLast? ≠ some 'Z' := by
  rw [offsetText, chars_ofList, List.getLast?_append]
  exact fun h => absurd (Option.some.inj h) (show '0' ≠ 'Z' by decide)

theorem formats_hash : Function.Injective formats.hash :=
  hashIn_injective (by decide) (by decide)

theorem confirmation_cluster (d : Descriptor) (bindingDigest : String) :
    ∃ c, exactConfirmation d cluster bindingDigest = .ok c := ⟨_, rfl⟩

theorem planOperation_cluster : ∃ d c, descriptors "create-postgres-cluster" = some d ∧
    planOperation formats.hash "create-postgres-cluster" cluster "" =
      .ok ⟨"create-postgres-cluster", d, digest formats.hash d.value, c, cluster⟩ := by
  have hok : (planOperation formats.hash "create-postgres-cluster" cluster "").isOk = true := by decide
  cases hplanned : planOperation formats.hash "create-postgres-cluster" cluster "" with
  | error e =>
      rw [hplanned] at hok
      cases hok
  | ok p =>
      obtain ⟨d, c, hd, -, hp⟩ := planOperation_ok hplanned
      exact ⟨d, c, hd, congrArg Except.ok hp⟩

theorem plan_run : ∃ planned shown row,
    (plan formats planBody).exec reply (fun _ => answered) ⟨[], []⟩ =
      (.ok (planned, postcondition, some shown), ⟨[row], []⟩) ∧
    planned.target = cluster ∧
    shown.planDigest = "sha256:f71053ef354523048094a6d2fc333d5297c7de3ca0ddf0e636ebed5a1659bc3b" ∧
    row.actorId.text = answered.actor.actorId ∧ row.authSessionId.text = answered.actor.authSessionId ∧
    answered.now < row.expiresAt := by
  obtain ⟨d, c, hd, hplanned⟩ := planOperation_cluster
  have hdigest : digest formats.hash d.value =
      "sha256:8f602a02f8ae293d59eda52c3f5aac16fd70dc74cfd78df297865a692e9beb0a" := by
    have hsame : (descriptors "create-postgres-cluster").map (fun d => digest formats.hash d.value) =
        some "sha256:8f602a02f8ae293d59eda52c3f5aac16fd70dc74cfd78df297865a692e9beb0a" := by decide +kernel
    rw [hd] at hsame
    exact Option.some.inj hsame
  obtain ⟨actor, hactor⟩ := Option.isSome_iff_exists.mp
    (show (castUuid answered.actor.actorId).isSome = true by decide)
  obtain ⟨session, hsession⟩ := Option.isSome_iff_exists.mp
    (show (castUuid answered.actor.authSessionId).isSome = true by decide)
  have hactorText : (castUuid answered.actor.actorId).map Uuid.text = some answered.actor.actorId := by
    decide
  have hsessionText : (castUuid answered.actor.authSessionId).map Uuid.text =
      some answered.actor.authSessionId := by
    decide
  have hpostcondition : expectedPostcondition
      ⟨"create-postgres-cluster", d, digest formats.hash d.value, c, cluster⟩ = .ok postcondition := by
    cases hd
    rfl
  have hnone : ∀ p ∈ (⟨[], []⟩ : Tables).plans, p.planId ≠ "pgplan-" ++ answered.uuid.text := fun p hp =>
    absurd hp List.not_mem_nil
  have hreason : 8 ≤ Js.length (trim planBody.reason) := by decide
  obtain ⟨confirmation, row, hrun, hrowActor, hrowSession, hexpires⟩ :=
    plan_shown rfl (fun _ : Nat => (rfl : answered.failure = none)) hplanned hpostcondition hactor hsession
      (by decide) (by decide) hreason hnone (confirmation_cluster d)
  refine ⟨_, _, row, hrun, rfl, ?_, ?_, ?_, ?_⟩
  · dsimp only
    rw [hdigest]
    decide +kernel
  · rw [hactor] at hactorText
    rw [hrowActor]
    exact Option.some.inj hactorText
  · rw [hsession] at hsessionText
    rw [hrowSession]
    exact Option.some.inj hsessionText
  · rw [hexpires]
    decide

theorem only_plan {row' : PlanRow} {id : String}
    (h : (List.find? (fun p => p.planId = id) [row]) = some row') : row = row' := by
  rw [List.find?_singleton] at h
  split at h
  · exact Option.some.inj h
  · cases h

theorem plan_formats : Command.uuidFormat answered.actor.actorId = true ∧
    Command.uuidFormat answered.actor.authSessionId = true ∧
    Command.revisionFormat
      "sha256:f71053ef354523048094a6d2fc333d5297c7de3ca0ddf0e636ebed5a1659bc3b" = true := by
  decide

end Demo

/-- A plan that was shown is never accepted: by its own actor it is always rejected for its digest. -/
theorem plan_never_accepted (F : Formats) (hhash : Function.Injective F.hash)
    (hoffset : ∀ n, (chars (F.timestamptz n)).getLast? ≠ some 'Z') {b : Body} {es : Nat → Reply}
    {t t' : Tables} {planned : Planned} {postcondition : Value} {shown : Shown}
    (hshown : (plan F b).exec reply es t = (.ok (planned, postcondition, some shown), t')) :
    ∃ row, (t'.plans.find? fun p => p.planId = shown.planId) = some row ∧
      ∀ (u : Tables) (consumed : Option Uuid),
        (u.plans.find? fun p => p.planId = shown.planId) =
          some { row with consumedOperationId := consumed } →
        ∀ (a : Body) (rs : Nat → Reply), a.planId = shown.planId →
          (∀ enabled operation, ((accept F enabled a).exec reply rs u).1 ≠ .ok operation) ∧
          ((∀ n, (rs n).failure = none) → row.actorId.text = (rs 0).actor.actorId →
            row.authSessionId.text = (rs 0).actor.authSessionId →
            Command.uuidFormat row.actorId.text = true →
            Command.uuidFormat row.authSessionId.text = true →
            (rs 2).now < row.expiresAt → a.planDigest = shown.planDigest →
            Command.revisionFormat shown.planDigest = true → (rs 3).resolved = planned.target →
            (accept F true a).exec reply rs u = (.error changed, u)) := by
  obtain ⟨row, hrow, hplanId, hdigest, hplanned, hpostcondition, actorId, action, descriptorDigest, target,
    payload, hdocument⟩ := plan_ok hshown
  have hchanged (actorId' action' descriptorDigest' : String) (target' payload' postcondition' : Value) :
      digest F.hash (planDocument actorId' action' descriptorDigest' target' payload' postcondition'
        (F.timestamptz row.expiresAt)) ≠ row.planDigest := by
    rw [← hdocument]
    exact digest_changed hhash hoffset row.expiresAt
  refine ⟨row, hrow, fun u consumed hu a rs ha => ⟨fun enabled operation haccept => ?_, ?_⟩⟩
  · obtain ⟨⟨prepared, stored⟩, _, _, hprepare, -⟩ :=
      exec_bind_ok (Prod.ext haccept rfl : (accept F enabled a).exec reply rs u = (.ok operation, _))
    obtain ⟨p, actorId, action, descriptorDigest, target, payload, postcondition, hp, hsame⟩ :=
      prepare_ok (ha ▸ hplanId) hprepare
    rw [ha, hu] at hp
    obtain rfl := Option.some.inj hp
    exact hchanged _ _ _ _ _ _ hsame
  · intro hanswered hactor hsession hactorFormat hsessionFormat hnow hsame hformat htarget
    rw [← ha] at hu
    exact accept_changed hanswered hu (ha ▸ hplanId) hactor hsession hactorFormat hsessionFormat hnow
      (hsame.trans hdigest.symm) (hdigest ▸ hformat) (htarget ▸ hplanned) hpostcondition hchanged

theorem cluster_never_accepted : ∃ planned shown row,
    (plan Demo.formats Demo.planBody).exec reply (fun _ => Demo.answered) ⟨[], []⟩ =
      (.ok (planned, Demo.postcondition, some shown), ⟨[row], []⟩) ∧
    (accept Demo.formats true (Demo.acceptBody shown)).exec reply (fun _ => Demo.answered) ⟨[row], []⟩ =
      (.error changed, ⟨[row], []⟩) := by
  obtain ⟨planned, shown, row, hrun, htarget, hdigest, hactor, hsession, hnow⟩ := Demo.plan_run
  obtain ⟨row', hrow, hnever⟩ := plan_never_accepted Demo.formats Demo.formats_hash Demo.offsetText_last hrun
  obtain rfl := Demo.only_plan hrow
  refine ⟨planned, shown, row, hrun, (hnever _ row.consumedOperationId hrow (Demo.acceptBody shown) _ rfl).2
    (fun _ => rfl) hactor hsession ?_ ?_ hnow rfl ?_ htarget.symm⟩
  · rw [hactor]
    exact Demo.plan_formats.1
  · rw [hsession]
    exact Demo.plan_formats.2.1
  · rw [hdigest]
    exact Demo.plan_formats.2.2

/-- The plan of a cluster is rejected at once, by the same actor and with the same target. -/
theorem cluster_changed : ∃ planned shown row,
    (plan Demo.formats Demo.planBody).exec reply (fun _ => Demo.answered) ⟨[], []⟩ =
      (.ok (planned, Demo.postcondition, some shown), ⟨[row], []⟩) ∧
    Demo.answered.now < row.expiresAt ∧ Demo.answered.resolved = planned.target ∧
    (accept Demo.formats true (Demo.acceptBody shown)).exec reply (fun _ => Demo.answered) ⟨[row], []⟩ =
      (.error changed, ⟨[row], []⟩) := by
  obtain ⟨planned, shown, row, hrun, htarget, hdigest, hactor, hsession, hnow⟩ := Demo.plan_run
  obtain ⟨row', hrow, hplanId, hrowDigest, hplanned, hpostcondition, _, _, _, _, _, hdocument⟩ := plan_ok hrun
  obtain rfl := Demo.only_plan hrow
  rw [htarget] at hplanned
  refine ⟨planned, shown, row, hrun, hnow, htarget.symm, ?_⟩
  refine accept_changed (fun _ => rfl) hrow hplanId hactor hsession ?_ ?_ hnow hrowDigest.symm ?_ hplanned
    hpostcondition fun _ _ _ _ _ _ => ?_
  · rw [hactor]
    exact Demo.plan_formats.1
  · rw [hsession]
    exact Demo.plan_formats.2.1
  · rw [hrowDigest, hdigest]
    exact Demo.plan_formats.2.2
  · rw [← hdocument]
    exact digest_changed Demo.formats_hash Demo.offsetText_last row.expiresAt

end Durable
