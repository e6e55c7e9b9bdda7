import OpenSphere.Lifecycle.Stage

/-!
# Worker fencing

A worker's call changes something only while it holds the claim it names: the
row is undelivered, of an event type the function serves, owned by the worker at
the epoch of the call, and its lease has not run out.  The fence of the functions
alone does not say so, since it passes over NULL; the NOT NULL columns and the
CHECK of the receipt, and the invariant that a row with a positive epoch has an
owner, close the gaps.

A claim that was superseded stays superseded: the epoch of a row never goes
back.

The row of the claim is not always the dispatch row.  An observation is claimed
by a row of its own, when the dispatch row has long been delivered; the run at
the end shows it.
-/

open Sql
open System (run run_append)

namespace Authority

variable {c : Call} {q : ClaimRef} {types : List EventType} {r : Outbox}

/-! ## Calls that name a claim -/

/-- The claim a worker's call names, and the events the function serves. -/
def Call.fence : Call → Option (ClaimRef × List EventType)
  | .applyRevocation p => some (p.toClaimRef, [.operationReadyForDispatch])
  | .applyInstallRegistration p => some (p.toClaimRef, [.operationReadyForDispatch])
  | .applyRemoveRegistration p => some (p.toClaimRef, [.operationReadyForDispatch])
  | .recordInstallObservation p => some (p.toClaimRef, [.extensionInstallObservationRequested])
  | .recordRemoveObservation p => some (p.toClaimRef, [.extensionRemovalObservationRequested])
  | .recordExecutionFailure p => some (p.toClaimRef, [.operationReadyForDispatch,
      .extensionInstallObservationRequested, .extensionRemovalObservationRequested])
  | _ => none

/-- A worker's call that commits takes a step. -/
theorem exec_steps {D : Digest} {s : Statement} {db db' : Db}
    (h : c.exec D s db = .ok db') (hc : c.fence ≠ none) : Steps (db.scene s) c.label db db' := by
  cases c with
  | applyRevocation p =>
      obtain ⟨v, hv⟩ := fst_map_eq_ok h
      exact applyRevocation_steps hv
  | applyInstallRegistration p =>
      obtain ⟨v, hv⟩ := fst_map_eq_ok h
      exact applyInstallRegistration_steps hv
  | applyRemoveRegistration p =>
      obtain ⟨v, hv⟩ := fst_map_eq_ok h
      exact applyRemoveRegistration_steps hv
  | recordInstallObservation p =>
      obtain ⟨v, hv⟩ := fst_map_eq_ok h
      exact recordInstallObservation_steps hv
  | recordRemoveObservation p =>
      obtain ⟨v, hv⟩ := fst_map_eq_ok h
      exact recordRemoveObservation_steps hv
  | recordExecutionFailure p =>
      obtain ⟨v, hv⟩ := fst_map_eq_ok h
      exact recordExecutionFailure_steps hv
  | _ => exact absurd rfl hc

theorem Case.Step.fenced {w : Scene} {c c' : Case} {call : Call}
    (h : Case.Step w call.label c c') (hq : call.fence = some (q, types)) :
    ∃ o r, c.op = some o ∧ c.Row r ∧ Fenced w q types r := by
  cases call <;> cases hq <;> cases h <;> exact ⟨_, _, ‹_›, ‹_›, ‹_›⟩

/-! ## Current claims -/

/-- The claim is held: the named row is undelivered, serves one of the events, and
is leased to the worker at the epoch. -/
structure ClaimRef.Held (q : ClaimRef) (types : List EventType) (s : Statement) (r : Outbox) :
    Prop where
  outboxId : q.outboxId = some r.outboxId
  operationId : q.operationId = some r.operationId
  eventType : r.eventType ∈ types
  undelivered : r.deliveredAt = none
  worker : r.claimOwner = q.workerId ∧ q.workerId ≠ none
  epoch : q.claimEpoch = some r.claimEpoch ∧ 0 < r.claimEpoch
  lease : ∀ t, r.leaseExpiresAt = some t → s.now < t

/-- A row that passes the fence of a reachable database is held by the caller: a
claimed row has an owner. -/
theorem Fenced.held {w : Scene}
    {o : Operation} (h : Fenced w q types r) (hclaimed : r.Claimed o) : q.Held types w.s r := by
  obtain ⟨u, hu, hnone | hsome⟩ := h.worker
  · exact absurd hnone (hclaimed.worker h.epoch.2)
  · exact ⟨h.outboxId, h.operationId, h.eventType, h.undelivered,
      ⟨hsome.trans hu.symm, by rw [hu]; nofun⟩, h.epoch, h.lease⟩

/-- A worker's call changes nothing, or names a claim that is held. -/
theorem perform_held (D : Digest) (i : Identity) (as : List Action) (s : Statement)
    (hq : c.fence = some (q, types)) :
    perform D (.call s c) (reach D i as) = reach D i as ∨
      ∃ r ∈ (reach D i as).outbox.rows, q.Held types s r := by
  rcases perform_call_cases D s c (reach D i as) with hsame | hok
  · exact .inl hsame
  · right
    obtain ⟨id, f, -, hstep⟩ := exec_steps hok (by rw [hq]; nofun)
    obtain ⟨o, r, hop, hrow, hfence⟩ := hstep.fenced hq
    exact ⟨r, (List.mem_filter.mp hrow.1).1,
      hfence.held ((reach_inv D i as id).claimed o hop r hrow.1)⟩

/-- Two rows of an identifier, the second in a later database: its epoch is not
smaller. -/
theorem epoch_mono {db db' : Db} (h : db.Later db') {r' : Outbox} (hr : r ∈ db.outbox.rows)
    (hr' : r' ∈ db'.outbox.rows) (hid : r'.outboxId = r.outboxId) :
    r.claimEpoch ≤ r'.claimEpoch := by
  obtain ⟨x, hx, hl⟩ := h.row hr
  rw [Table.eq_of_key_eq hr' hx (hid.trans hl.outboxId.symm)]
  exact hl.epoch

/-- A call with a superseded epoch changes nothing, at any later time. -/
theorem superseded_noop (D : Digest) (i : Identity) (as bs : List Action) (s : Statement)
    (hq : c.fence = some (q, types)) {n : Int}
    (hr : r ∈ (reach D i as).outbox.rows) (hid : q.outboxId = some r.outboxId)
    (hepoch : q.claimEpoch = some n) (hlt : n < r.claimEpoch) :
    perform D (.call s c) (reach D i (as ++ bs)) = reach D i (as ++ bs) := by
  rcases perform_held D i (as ++ bs) s hq with hsame | ⟨x, hx, hheld⟩
  · exact hsame
  · have hlater : (reach D i as).Later (reach D i (as ++ bs)) := by
      rw [reach_append]
      exact run_later D bs _
    have hkey : x.outboxId = r.outboxId := Option.some.inj (hheld.outboxId.symm.trans hid)
    have hmono := epoch_mono hlater hr hx hkey
    have hnow : x.claimEpoch = n := Option.some.inj (hheld.epoch.1.symm.trans hepoch)
    omega

/-- **Worker fencing.**  In every reachable database a worker's call changes
nothing unless the row it names is undelivered, of an event its function serves,
and held by the worker at the epoch of the call; and a call that names an epoch
below the one a row has reached changes nothing from then on. -/
theorem worker_fencing (D : Digest) (i : Identity) (as : List Action) :
    (∀ s c q types, c.fence = some (q, types) →
      perform D (.call s c) (reach D i as) = reach D i as ∨
        ∃ r ∈ (reach D i as).outbox.rows, q.Held types s r) ∧
    (∀ bs s c q types r n, c.fence = some (q, types) → r ∈ (reach D i as).outbox.rows →
      q.outboxId = some r.outboxId → q.claimEpoch = some n → n < r.claimEpoch →
      perform D (.call s c) (reach D i (as ++ bs)) = reach D i (as ++ bs)) :=
  ⟨fun s _ _ _ hq => perform_held D i as s hq,
    fun bs s _ _ _ _ _ hq hr hid hepoch hlt => superseded_noop D i as bs s hq hr hid hepoch hlt⟩

/-! ## A site to run on

Concrete runs take a small site: Alice initiates, Bob approves and verifies, and
one worker runs the operations.  The digest is a checksum in the form of a
SHA-256 digest. -/

namespace Demo

/-- A text with some hexadecimal digits after the name of the hash. -/
def digestText (ds : List Char) : String := String.ofList (chars "sha256:" ++ ds)

theorem matchClass_exactly {p : Char → Bool} {k : List Char → Bool} :
    ∀ (cs : List Char), (∀ c ∈ cs, p c = true) → k [] = true →
      matchClass p k cs cs.length (some cs.length) = true
  | [], _, hk => by simp [matchClass, hk]
  | c :: cs, hp, hk => by
      have ih := matchClass_exactly cs (fun x hx => hp x (List.mem_cons_of_mem _ hx)) hk
      simp [matchClass, hp c (List.mem_cons_self ..), ih]

theorem digestText_format {ds : List Char} (hlen : ds.length = 64)
    (hhex : ∀ c ∈ ds, hexLower c = true) : digestFormat (digestText ds) = true := by
  have hclass := matchClass_exactly (k := List.isEmpty) ds hhex rfl
  rw [hlen] at hclass
  have hname : chars "sha256:" = ['s', 'h', 'a', '2', '5', '6', ':'] := by decide
  unfold digestFormat Pattern.full digestText
  rw [chars_ofList, hname]
  simp [Pattern.seq, Pattern.text, Pattern.times, Pattern.repeated, hname, matchChars, hclass]

def hexDigits (n : Nat) : List Char := (List.range 8).map fun i => Nat.digitChar (n >>> (4 * i) % 16)

def checksum (x : Jsonb) : Nat := x.tree.chars.foldl (fun h c => (h * 257 + c.toNat) % 4294967296) 7

def digest : Digest where
  hash x := digestText (List.replicate 56 '0' ++ hexDigits (checksum x))
  format x := by
    refine digestText_format (by simp [hexDigits]) fun c hc => ?_
    rcases List.mem_append.mp hc with hc | hc
    · rw [List.eq_of_mem_replicate hc]
      decide
    · obtain ⟨i, -, rfl⟩ := List.mem_map.mp hc
      exact Sql.hexLower_digitChar (Nat.mod_lt _ (by decide))

def alice : Uuid := ⟨1⟩

def bob : Uuid := ⟨2⟩

def worker : Uuid := ⟨3⟩

def noon : Timestamp := 1767225600000000

/-- A recent `aal2` session of a subject. -/
def session (sessionId subject : Uuid) : BrowserSession :=
  ⟨sessionId, subject, .aal2, 3, 0, noon, noon + seconds 3600, none, some noon⟩

def site : Identity where
  subjects := ⟨[⟨alice, ⟨4⟩, 3, 0⟩, ⟨bob, ⟨5⟩, 3, 0⟩], by decide, by decide⟩
  sessions := ⟨[session ⟨6⟩ alice, session ⟨7⟩ bob], by decide, by decide⟩
  grants := ⟨[⟨alice, "console.extension.install", 1, none⟩,
    ⟨alice, "console.extension.revocation.create", 1, none⟩, ⟨alice, "console.git.change", 1, none⟩,
    ⟨bob, "console.operation.approve", 1, none⟩, ⟨bob, "console.operation.verify", 1, none⟩],
    by decide, by decide⟩
  environment := none

/-- The surroundings of the call `k` seconds after noon. -/
def second (k : Nat) : Statement := ⟨noon + seconds k, ⟨BitVec.ofNat 128 (100 + k)⟩,
  ⟨BitVec.ofNat 128 (200 + k)⟩, k, 0, []⟩

def image : String :=
  "ghcr.io/opensphere-platform/opensphere-shell-cluster-manager@sha256:1111111111111111111111111111111111111111111111111111111111111111"

def otherDigest : String :=
  "sha256:2222222222222222222222222222222222222222222222222222222222222222"

def commit : String := "3333333333333333333333333333333333333333"

def installPlan : Jsonb :=
  .object [
    ("schemaVersion", .ofText "1.0"),
    ("authority", .ofText "OpenSphereRegistry"),
    ("descriptorId", .ofText "extension.cluster-manager"),
    ("catalogRevision", .ofText otherDigest),
    ("image", .ofText image)]

def request (action key : String) (plan : Jsonb) : AcceptArgs where
  sessionId := some ⟨6⟩
  actorRef := some alice
  expectedPermissionRevision := some 3
  expectedRevokeEpoch := some 0
  requiredPermission := some action
  actionId := some action
  actionVersion := some "1.0"
  targetRef := some image
  payloadDigest := some otherDigest
  risk := some "R2"
  reason := some "test"
  planRevision := some "1"
  approvalRequired := some false
  idempotencyKey := some key
  correlationId := some key
  sourceRevision := none
  ownerRef := some "C_EXT"
  expectedPostcondition := none
  executionPlan := some plan

def install : AcceptArgs := request "console.extension.install" "install-1" installPlan

def claim : ClaimArgs where
  workerId := some worker
  ownerRef := some "C_EXT"
  supportedActions := some (extensionActions.map some)
  leaseSeconds := some 60

def firstClaim (outboxId : Int) (operationId : Uuid) : ClaimRef :=
  ⟨some worker, some outboxId, some 1, some operationId⟩

/-- The worker's report of the installed registration. -/
def applyInstall (q : ClaimRef) (target : Option String) : InstallArgs where
  toClaimRef := q
  targetRef := target
  payloadDigest := some otherDigest
  executionPlan := some installPlan
  registrationName := some "cluster-manager"
  registrationUid := some "uid"
  registrationResourceVersion := some "1"
  packageResourceVersion := some "1"
  packageGeneration := some 1
  created := some true
  manifestDigest := some otherDigest
  sourceRevision := some commit
  compatibilityVersion := some "1.0.0"
  keyId := some "key"

/-- The observation of an installation, with some parts given. -/
def observation (workload verification : List (String × Jsonb)) : Jsonb :=
  .object [
    ("package", .object [
      ("name", .ofText "cluster-manager"),
      ("resourceVersion", .ofText "1"),
      ("generation", .ofText "1"),
      ("digest", .ofText (splitPart image '@' 2)),
      ("manifestDigest", .ofText otherDigest),
      ("sourceRevision", .ofText commit),
      ("compatibilityVersion", .ofText "1.0.0"),
      ("keyId", .ofText "key")]),
    ("registration", .object [
      ("name", .ofText "cluster-manager"),
      ("uid", .ofText "uid"),
      ("resourceVersion", .ofText "1"),
      ("generation", .ofText "1"),
      ("observedGeneration", .ofText "1"),
      ("desiredState", .ofText "Installed"),
      ("phase", .ofText "Ready")]),
    ("workload", .object workload),
    ("verification", .object verification),
    ("serving", .object [
      ("phase", .ofText "Current"),
      ("digest", .ofText (splitPart image '@' 2)),
      ("manifestDigest", .ofText otherDigest)]),
    ("revalidation", .object [("phase", .ofText "Passed")])]

def readyObservation : Jsonb :=
  observation [("phase", .ofText "Ready")] [
    ("manifest", .ofText "Verified"),
    ("signature", .ofText "Verified"),
    ("entryDigest", .ofText "Verified"),
    ("permissions", .ofText "Approved")]

/-- The installation is accepted, claimed, applied, and claimed for observation. -/
def installRun : List Action := [
  .call (second 1) (.acceptOperation install),
  .call (second 2) (.claimOwnerOperation claim),
  .call (second 3) (.applyInstallRegistration (applyInstall (firstClaim 1 ⟨101⟩) (some image))),
  .call (second 4) (.claimOwnerOperation claim)]

/-- The site with the installation applied and claimed for observation. -/
def installed : Db := reach digest site installRun

def observeInstalled (observation : Jsonb) : ObserveArgs where
  toClaimRef := firstClaim 3 ⟨101⟩
  targetRef := some image
  payloadDigest := some otherDigest
  appliedReceiptDigest := installed.receipts.rows.getLast?.map (·.evidenceDigest)
  observation := some observation

def observedRun (observation : Jsonb) : List Action :=
  installRun ++ [.call (second 5) (.recordInstallObservation (observeInstalled observation))]

/-- An observation whose workload has another key in the place of its phase. -/
def phaselessObservation : Jsonb :=
  observation [("state", .ofText "CrashLoopBackOff")] [
    ("manifest", .ofText "Verified"),
    ("signature", .ofText "Verified"),
    ("entryDigest", .ofText "Verified"),
    ("permissions", .ofText "Approved")]

theorem reach_observed (observation : Jsonb) : reach digest site (observedRun observation) =
    perform digest (.call (second 5) (.recordInstallObservation (observeInstalled observation)))
      installed := by
  rw [observedRun, reach_append, run, run, installed]

-- both observations are of the same installation
theorem observed_runs :
    ((reach digest site (observedRun readyObservation)).receipts.rows.length =
        installed.receipts.rows.length + 1 ∧
      ∀ r ∈ installed.outbox.rows,
        r.eventType = .operationReadyForDispatch → r.deliveredAt ≠ none) ∧
    (∃ o ∈ (reach digest site (observedRun readyObservation)).operations.rows,
      o.state = .verified ∧ o.actionId = "console.extension.install") ∧
    ∃ o ∈ (reach digest site (observedRun phaselessObservation)).operations.rows,
      (o.state = .verified ∧ o.actionId = "console.extension.install") ∧
        ∀ x ∈ (reach digest site (observedRun phaselessObservation)).receipts.rows,
          fieldText (field (some x.evidence) "workload") "phase" = none := by
  rw [reach_observed, reach_observed]
  decide +kernel

end Demo

/-- The dispatch row of the claim is undelivered and held by the worker. -/
def ClaimRef.HoldsDispatch (q : ClaimRef) (s : Statement) (db : Db) : Prop :=
  ∃ r ∈ db.outbox.rows, q.operationId = some r.operationId ∧
    r.eventType = .operationReadyForDispatch ∧ r.deliveredAt = none ∧ r.claimOwner = q.workerId ∧
    q.claimEpoch = some r.claimEpoch ∧ 0 < r.claimEpoch ∧
    ∀ t, r.leaseExpiresAt = some t → s.now < t

/-- An observation commits when the dispatch row of its operation is delivered
already. -/
theorem observation_without_dispatch :
    (perform Demo.digest (.call (Demo.second 5) (.recordInstallObservation
        (Demo.observeInstalled Demo.readyObservation))) Demo.installed).receipts.rows.length =
      Demo.installed.receipts.rows.length + 1 ∧
    ¬ (Demo.observeInstalled Demo.readyObservation).toClaimRef.HoldsDispatch (Demo.second 5)
      Demo.installed := by
  rw [← Demo.reach_observed]
  refine ⟨Demo.observed_runs.1.1, ?_⟩
  rintro ⟨r, hr, -, htype, hnone, -⟩
  exact Demo.observed_runs.1.2 r hr htype hnone

end Authority
