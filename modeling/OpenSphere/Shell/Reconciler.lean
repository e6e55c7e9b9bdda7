import OpenSphere.Js.Text
import OpenSphere.Shell.System
import OpenSphere.System.Program

/-!
# The reconciler

`reconcile` of `os-shell-control` brings the Pod of a session to what its row
asks for.  It awaits the database and the Kubernetes API in turn, and nothing
holds the two together: the row is fenced by its lease and epoch, the Pod only by
its name and its UID.

A call of `reconcile` is a program.  Its requests are the queries and the API
calls it awaits and the readings of the local clock, and a `World` answers them.
What a request fails with before or after it took effect is up to the `Stamp` of
the answer.  The map `active` of the process only selects the rows `tick` looks
at again, and is left out.
-/

open Sql
open Js (maxSafeInteger)

namespace ConsoleShell

/-! ## Errors -/

/-- What a call of `os-shell-control` throws. -/
inductive Thrown where
  /-- An error of the database. -/
  | sql (e : SqlError)
  /-- `Kubernetes API returned ${status}`. -/
  | kubernetes (status : Nat)
  /-- `contractError(code, message, status)`. -/
  | contract (code message : String) (status : Nat)
  /-- `new Error(message)`. -/
  | error (message : String)
  /-- A timeout or a lost connection. -/
  | unanswered

/-- `error.status`. -/
def Thrown.status : Thrown → Option Nat
  | .kubernetes status => some status
  | .contract _ _ status => some status
  | _ => none

/-- `contractError('ShellDatabaseContractInvalid', message)`. -/
def contractInvalid (message : String) : Thrown :=
  .contract "ShellDatabaseContractInvalid" message 400

def required (value label : String) : Except Thrown String :=
  if Js.trim value = "" then .error (contractInvalid (String.append label " is required"))
  else .ok (Js.trim value)

/-- `value ? required(value, label) : null`. -/
def optional (value : Option String) (label : String) : Except Thrown (Option String) :=
  match value.filter (· ≠ "") with
  | some t => some <$> required t label
  | none => .ok none

/-- `positiveInteger(value, label)`.  A `bigint` above the safe integers is rounded to a
number that is not safe either. -/
def positiveInteger (value : Int) (label : String) : Except Thrown Int :=
  if 1 ≤ value ∧ value ≤ maxSafeInteger then .ok value
  else .error (contractInvalid (String.append label " must be a positive integer"))

/-! ## Pods -/

/-- `shellPodName`.  Two sessions whose first 20 digits agree have one name. -/
def shellPodName (sessionId : Uuid) : String :=
  String.append "os-shell-" (String.ofList (((chars sessionId.text).filter (· ≠ '-')).take 20))

/-- What `buildRuntimePod` fills into its template: the labels of the Pod. -/
structure PodSpec where
  /-- `opensphere.io/session-id`. -/
  sessionId : Uuid
  /-- `opensphere.io/generation`. -/
  generation : Int
  /-- `opensphere.io/fencing-epoch`. -/
  fencingEpoch : Int
deriving DecidableEq

structure Pod extends PodSpec where
  uid : Uuid
  resourceVersion : String
deriving DecidableEq

/-- `metadata.name`. -/
def PodSpec.name (p : PodSpec) : String := shellPodName p.sessionId

/-- The Pods of the session namespace, now and ever.  A name is taken once at a time, a UID
once for all. -/
structure Cluster where
  pods : List Pod
  created : List Pod
  known : ∀ p ∈ pods, p ∈ created
  names : pods.Pairwise fun p q => p.name ≠ q.name
  uids : created.Pairwise fun p q => p.uid ≠ q.uid

def Cluster.empty : Cluster := ⟨[], [], by simp, .nil, .nil⟩

def Cluster.find (c : Cluster) (name : String) : Option Pod :=
  c.pods.find? fun p => decide (p.name = name)

/-- `GET /api/v1/namespaces/{namespace}/pods/{name}`. -/
def Cluster.get (c : Cluster) (name : String) : Except Thrown Pod :=
  match c.find name with
  | some p => .ok p
  | none => .error (.kubernetes 404)

/-- `POST /api/v1/namespaces/{namespace}/pods`.  The API server gives every Pod a UID of
its own. -/
def Cluster.create (c : Cluster) (spec : PodSpec) (uid : Uuid) (resourceVersion : String) :
    Except Thrown (Cluster × Pod) :=
  if hname : ∀ p ∈ c.pods, p.name ≠ spec.name then
    if huid : ∀ p ∈ c.created, p.uid ≠ uid then
      let pod : Pod := { spec with uid := uid, resourceVersion := resourceVersion }
      .ok ({
        pods := pod :: c.pods
        created := pod :: c.created
        known := List.forall_mem_cons.mpr ⟨List.mem_cons_self .., fun p hp =>
          List.mem_cons_of_mem _ (c.known p hp)⟩
        names := List.pairwise_cons.mpr ⟨fun p hp => (hname p hp).symm, c.names⟩
        uids := List.pairwise_cons.mpr ⟨fun p hp => (huid p hp).symm, c.uids⟩ }, pod)
    else .error .unanswered
  else .error (.kubernetes 409)

/-- The Pods that satisfy `p`. -/
def Cluster.keep (c : Cluster) (p : Pod → Bool) : Cluster where
  pods := c.pods.filter p
  created := c.created
  known q hq := c.known q (List.mem_of_mem_filter hq)
  names := c.names.filter p
  uids := c.uids

/-- `DELETE /api/v1/namespaces/{namespace}/pods/{name}` with `preconditions: { uid }`. -/
def Cluster.delete (c : Cluster) (name uid : String) : Except Thrown Cluster :=
  match c.find name with
  | none => .error (.kubernetes 404)
  | some p =>
      if p.uid.text = uid then .ok (c.keep fun q => decide (q.name ≠ name))
      else .error (.kubernetes 409)

/-! ## Requests -/

/-- What `reconcile` awaits. -/
inductive Request where
  /-- `Date.now()`. -/
  | now
  /-- `SELECT console_shell.current_shell_permission_revision($1)`. -/
  | currentShellPermissionRevision (actorId : Uuid)
  /-- `SELECT * FROM console_shell.transition_shell_session(...)`. -/
  | transitionShellSession (p : TransitionArgs)
  /-- `SELECT * FROM console_shell.revoke_shell_session_authority(...)`. -/
  | revokeShellSessionAuthority (f : Fence) (reasonCode : Option String)
  /-- `SELECT * FROM console_shell.reproject_shell_runtime(...)`. -/
  | reprojectShellRuntime (p : ReprojectArgs)
  /-- `kube.getPod`. -/
  | getPod (name : String)
  /-- `kube.createPod`. -/
  | createPod (spec : PodSpec)
  /-- The call of `kube.deletePod`. -/
  | deletePod (name uid : String)

abbrev Request.Result : Request → Type
  | .now => Timestamp
  | .currentShellPermissionRevision _ => String
  | .transitionShellSession _ => ShellSession
  | .revokeShellSessionAuthority _ _ => ShellSession
  | .reprojectShellRuntime _ => ShellSession
  | .getPod _ => Pod
  | .createPod _ => Pod
  | .deletePod _ _ => Unit

/-- A function of `os-shell-control` that awaits. -/
abbrev Routine := System.Program Thrown Request Request.Result

/-- `await` of a request. -/
def request (q : Request) : Routine q.Result := .await q

structure World where
  shell : Shell
  cluster : Cluster

inductive Fault where
  | none
  /-- It fails, and has had no effect. -/
  | before
  /-- It takes effect, but the answer is lost. -/
  | after
deriving DecidableEq

/-- What the answer to a request depends on besides the world. -/
structure Stamp where
  /-- The clock readings of the database call. -/
  clock : Clock
  /-- The local clock. -/
  now : Timestamp
  /-- The UID of a created Pod. -/
  uid : Uuid
  /-- Its `resourceVersion`. -/
  resourceVersion : String
  fault : Fault

def World.commit {α : Type} (w : World) : Except SqlError (Shell × α) → Except Thrown α × World
  | .ok (db, x) => (.ok x, { w with shell := db })
  | .error e => (.error (.sql e), w)

def serve (C : ShellCrypto) (e : Stamp) (q : Request) (w : World) :
    Except Thrown q.Result × World :=
  match q with
  | .now => (.ok e.now, w)
  | .currentShellPermissionRevision actorId =>
      ((currentShellPermissionRevision C w.shell.site (some actorId)).mapError .sql, w)
  | .transitionShellSession p => w.commit (transitionShellSession C e.clock p w.shell)
  | .revokeShellSessionAuthority f reasonCode =>
      w.commit (revokeShellSessionAuthority C e.clock f reasonCode w.shell)
  | .reprojectShellRuntime p => w.commit (reprojectShellRuntime e.clock p w.shell)
  | .getPod name => (w.cluster.get name, w)
  | .createPod spec =>
      match w.cluster.create spec e.uid e.resourceVersion with
      | .ok (c, pod) => (.ok pod, { w with cluster := c })
      | .error x => (.error x, w)
  | .deletePod name uid =>
      match w.cluster.delete name uid with
      | .ok c => (.ok (), { w with cluster := c })
      | .error x => (.error x, w)

def answer (C : ShellCrypto) (e : Stamp) (q : Request) (w : World) :
    Except Thrown q.Result × World :=
  match e.fault with
  | .none => serve C e q w
  | .before => (.error .unanswered, w)
  | .after => (.error .unanswered, (serve C e q w).2)

/-! ## The database client -/

structure Config where
  worker : String
  runtimeImage : String
  /-- `Date.parse` of a `timestamptz` as the driver returns it. -/
  parse : Timestamp → Timestamp

def exactRevision : Pattern := .seq [.text "sha256:", .times hexLower 64]

def currentPermissionRevision (actorId : Uuid) (expectedRevision : Option String) :
    Routine String := do
  let revision : String ← request (.currentShellPermissionRevision actorId)
  if Js.test exactRevision revision = false then
    .throw (.contract "AuthorizationAuthorityUnavailable"
      "permission authority returned no canonical revision" 503)
  else if expectedRevision ≠ none ∧ expectedRevision ≠ some revision then
    .throw (.contract "PermissionRevisionChanged" "effective shell permission revision changed" 403)
  else pure revision

/-- `base`: what `reconcile` sends with every call. -/
structure Base where
  sessionId : Uuid
  actorId : Uuid
  worker : String
  generation : Int
  fencingEpoch : Int
  permissionRevision : String

def Base.of (config : Config) (row : ShellSession) : Base where
  sessionId := row.sessionId
  actorId := row.actorId
  worker := config.worker
  generation := row.generation
  fencingEpoch := row.fencingEpoch
  permissionRevision := row.permissionRevision

def Base.fence (b : Base) : Except Thrown Fence := do
  let worker ← required b.worker "worker"
  let generation ← positiveInteger b.generation "generation"
  let fencingEpoch ← positiveInteger b.fencingEpoch "fencingEpoch"
  return {
    sessionId := some b.sessionId
    worker := some worker
    generation := some generation
    fencingEpoch := some fencingEpoch }

/-- The input of `transitionSession`. -/
structure TransitionInput extends Base where
  expectedState : Observed
  nextState : Observed
  runtimeUid : Option String
  runtimeResourceVersion : Option String
  reasonCode : String

def TransitionInput.args (i : TransitionInput) (revision : String) :
    Except Thrown TransitionArgs := do
  let fence ← i.toBase.fence
  let runtimeUid ← optional i.runtimeUid "runtimeUid"
  let runtimeResourceVersion ← optional i.runtimeResourceVersion "runtimeResourceVersion"
  return {
    fence := fence
    actorId := some i.actorId
    expectedState := some i.expectedState.text
    nextState := some i.nextState.text
    permissionRevision := some revision
    runtimeUid := runtimeUid
    runtimeResourceVersion := runtimeResourceVersion
    reasonCode := some i.reasonCode }

def transitionSession (i : TransitionInput) : Routine ShellSession := do
  let revision ← currentPermissionRevision i.actorId (some i.permissionRevision)
  let args ← .lift (i.args revision)
  request (.transitionShellSession args)

def revokeSessionAuthority (b : Base) (reasonCode : String) : Routine ShellSession := do
  let fence ← .lift b.fence
  request (.revokeShellSessionAuthority fence (some reasonCode))

def reprojectRuntime (b : Base) (expectedRuntimeUid : Option String) (reasonCode : String) :
    Routine ShellSession := do
  let fence ← .lift b.fence
  let expectedRuntimeUid ← .lift (optional expectedRuntimeUid "expectedRuntimeUid")
  request (.reprojectShellRuntime {
    fence := fence
    actorId := some b.actorId
    expectedRuntimeUid := expectedRuntimeUid
    reasonCode := some reasonCode })

def claimSessions (config : Config) (t : Clock) (locked : List Uuid) (db : Shell) :
    Except Thrown (Shell × List ShellSession) := do
  let worker ← required config.worker "worker"
  (claimShellSessions t (some worker) (some 5) locked db).mapError .sql

/-! ## The Kubernetes client -/

/-- `/^[a-z0-9]([-a-z0-9]{0,61}[a-z0-9])?$/`. -/
def dnsLabel : Pattern :=
  .seq [.times (fun c => lower c || digit c) 1,
    .opt (.seq [.repeated (orOneOf (fun c => lower c || digit c) ['-']) 0 (some 61),
      .times (fun c => lower c || digit c) 1])]

def includes (text part : String) : Bool := (chars text).tails.any (chars part).isPrefixOf

def buildRuntimePod (config : Config) (row : ShellSession) : Except Thrown PodSpec :=
  if Js.test dnsLabel (shellPodName row.sessionId) = false ∨
      includes config.runtimeImage "@sha256:" = false then
    .error (.error "closed runtime template inputs are invalid")
  else .ok {
    sessionId := row.sessionId
    generation := row.generation
    fencingEpoch := row.fencingEpoch }

/-- `kube.createPod(config.namespace, buildRuntimePod(row, config))`. -/
def createRuntimePod (config : Config) (row : ShellSession) : Routine Pod := do
  let spec ← .lift (buildRuntimePod config row)
  request (.createPod spec)

/-- `kube.deletePod`, to which a Pod that is not there is deleted. -/
def deletePod (name uid : String) : Routine Unit :=
  System.Program.tryCatch (request (.deletePod name uid)) fun e =>
    if e.status = some 404 then pure () else .throw e

/-! ## Reconciliation -/

def reprojectStaleRuntime (config : Config) (row : ShellSession) : Routine ShellSession := do
  System.Program.tryCatch (do
      let pod : Pod ← request (.getPod (shellPodName row.sessionId))
      if some pod.uid.text ≠ row.runtimeUid ∨ pod.sessionId ≠ row.sessionId then
        .throw (.error "stale runtime Pod UID cannot be safely deleted")
      else deletePod (shellPodName row.sessionId) pod.uid.text)
    fun e => if e.status = some 404 then pure () else .throw e
  reprojectRuntime (Base.of config row) row.runtimeUid "LeaseFenceRecovered"

/-- `Date.parse(row.idle_expires_at) <= Date.now() || Date.parse(row.absolute_expires_at)
<= Date.now()`. -/
def expiredLocally (config : Config) (row : ShellSession) : Routine Bool := do
  let now : Timestamp ← request .now
  if config.parse row.idleExpiresAt ≤ now then pure true
  else
    let now : Timestamp ← request .now
    pure (decide (config.parse row.absoluteExpiresAt ≤ now))

def endingInput (b : Base) (row : ShellSession) (expected next : Observed) (reasonCode : String) :
    TransitionInput where
  toBase := b
  expectedState := expected
  nextState := next
  runtimeUid := row.runtimeUid
  runtimeResourceVersion := none
  reasonCode := reasonCode

/-- `if (row.runtime_uid) await kube.deletePod(...)`. -/
def deleteRuntime (row : ShellSession) : Routine Unit :=
  match row.runtimeUid.filter (· ≠ "") with
  | some uid => deletePod (shellPodName row.sessionId) uid
  | none => pure ()

def closeRuntime (b : Base) (row : ShellSession) : Routine Unit := do
  deleteRuntime row
  let _ ← transitionSession (endingInput b row .terminating .terminated "RuntimeDeleted")

/-- The end of a session: `row.desired_state === 'Terminated'`. -/
def teardownRuntime (b : Base) (row : ShellSession) : Routine Unit := do
  let row ← (if row.observedState ≠ .terminating then
      transitionSession (endingInput b row row.observedState .terminating "TeardownReconciled")
    else pure row)
  closeRuntime b row

/-- The Pod of a Pending session, in place of one that an earlier attempt has left. -/
def projectPod (config : Config) (row : ShellSession) : Routine Pod :=
  System.Program.tryCatch (createRuntimePod config row) fun e => do
    if e.status ≠ some 409 then .throw e
    else
      let stale : Pod ← request (.getPod (shellPodName row.sessionId))
      if stale.sessionId ≠ row.sessionId then
        .throw (.error "colliding runtime Pod is not owned by the session")
      else
        deletePod stale.name stale.uid.text
        createRuntimePod config row

def provisionRuntime (config : Config) (b : Base) (row : ShellSession) : Routine Unit := do
  let pod ← projectPod config row
  let _ ← transitionSession {
    toBase := b
    expectedState := .pending
    nextState := .provisioning
    runtimeUid := some pod.uid.text
    runtimeResourceVersion := some pod.resourceVersion
    reasonCode := "RuntimePodCreated" }

def readyRuntime (b : Base) (row : ShellSession) : Routine Unit := do
  let _ ← transitionSession {
    toBase := b
    expectedState := .provisioning
    nextState := .ready
    runtimeUid := row.runtimeUid
    runtimeResourceVersion := row.runtimeResourceVersion
    reasonCode := "RuntimeRegistered" }

/-- `Date.parse(row.runtime_projection_started_at) + 45_000 <= Date.now()`, where a
projection that has not started parses to no number. -/
def projectionStalled (config : Config) (row : ShellSession) : Routine Bool := do
  let now : Timestamp ← request .now
  pure (row.runtimeProjectionStartedAt.any fun t => decide (config.parse t + seconds 45 ≤ now))

/-- `reconcile`.  It ends with the row it would go on to reconcile, not reclaimed any
more: `return reconcile(row, false)`. -/
def reconcile (config : Config) (row : ShellSession) (reclaimed : Bool) :
    Routine (Option ShellSession) := do
  let b := Base.of config row
  let expired ← (if row.desiredState = .running then expiredLocally config row else pure false)
  let row ← (if expired then revokeSessionAuthority b "SessionExpired" else pure row)
  if row.desiredState = .terminated then
    teardownRuntime b row
    pure none
  else if reclaimed = true ∧ row.observedState ∈ [Observed.provisioning, .ready, .failed] then
    some <$> reprojectStaleRuntime config row
  else if row.observedState = .pending then
    provisionRuntime config b row
    pure none
  else if row.observedState = .provisioning ∧ row.runtimeRegisteredAt ≠ none then
    readyRuntime b row
    pure none
  else if row.observedState = .provisioning then
    let stalled ← projectionStalled config row
    if stalled then some <$> reprojectStaleRuntime config row
    else pure none
  else pure none

/-! ## What the client sends -/

theorem required_eq_ok {value label x : String} :
    required value label = .ok x ↔ Js.trim value = x ∧ x ≠ "" := by
  unfold required
  split
  next hblank =>
    constructor
    · intro h
      cases h
    · rintro ⟨hx, hne⟩
      exact absurd (hx.symm.trans hblank) hne
  next hne =>
    constructor
    · intro h
      cases h
      exact ⟨rfl, hne⟩
    · rintro ⟨rfl, -⟩
      rfl

theorem positiveInteger_eq_ok {value x : Int} {label : String} :
    positiveInteger value label = .ok x ↔ x = value ∧ 1 ≤ value ∧ value ≤ maxSafeInteger := by
  unfold positiveInteger
  split
  next hsafe =>
    constructor
    · intro h
      cases h
      exact ⟨rfl, hsafe⟩
    · rintro ⟨rfl, -⟩
      rfl
  next hunsafe =>
    constructor
    · intro h
      cases h
    · rintro ⟨-, hsafe⟩
      exact absurd hsafe hunsafe

theorem optional_eq_ok {t label : String} {y : Option String} (ht : t ≠ "") :
    optional (some t) label = .ok y ↔ y = some (Js.trim t) ∧ Js.trim t ≠ "" := by
  have hfilter : (some t).filter (· ≠ "") = some t := by simp [ht]
  rw [optional, hfilter]
  by_cases hblank : Js.trim t = ""
  · simp [required, hblank, Functor.map, Except.map]
  · simp [required, hblank, Functor.map, Except.map, eq_comm]

theorem Base.fence_eq_ok {b : Base} {f : Fence} :
    b.fence = .ok f ↔
      f = ⟨some b.sessionId, some (Js.trim b.worker), some b.generation, some b.fencingEpoch⟩ ∧
      Js.trim b.worker ≠ "" ∧ (1 ≤ b.generation ∧ b.generation ≤ maxSafeInteger) ∧
      1 ≤ b.fencingEpoch ∧ b.fencingEpoch ≤ maxSafeInteger := by
  simp only [Base.fence, bind_eq_ok, required_eq_ok, positiveInteger_eq_ok, pure_eq_ok]
  constructor
  · rintro ⟨worker, ⟨rfl, hworker⟩, generation, ⟨rfl, hgeneration⟩, epoch, ⟨rfl, hepoch⟩, rfl⟩
    exact ⟨rfl, hworker, hgeneration, hepoch⟩
  · rintro ⟨rfl, hworker, hgeneration, hepoch⟩
    exact ⟨_, ⟨rfl, hworker⟩, _, ⟨rfl, hgeneration⟩, _, ⟨rfl, hepoch⟩, rfl⟩

theorem hexLower_basic {c : Char} (h : hexLower c = true) : c.toNat < 0x10000 := by
  simp only [hexLower, digit, Bool.or_eq_true, Bool.and_eq_true, decide_eq_true_eq] at h
  rcases h with ⟨-, h⟩ | ⟨-, h⟩
  · exact lt_of_le_of_lt (show c.toNat ≤ '9'.toNat from h) (by decide)
  · exact lt_of_le_of_lt (show c.toNat ≤ 'f'.toNat from h) (by decide)

theorem exactRevision_permissionRevisionOf (C : ShellCrypto)
    (site : ConsoleIdentity.Site) (a : Authority.SubjectAuthority) :
    Js.test exactRevision (permissionRevisionOf C site a) = true := by
  have hbasic : Js.Basic (permissionRevisionOf C site a) := by
    intro c hc
    rw [permissionRevisionOf, chars_eq, show String.append "sha256:" (ConsoleIdentity.encodeHex _) =
      "sha256:" ++ ConsoleIdentity.encodeHex _ from rfl, String.toList_append, ← chars_eq,
      ← chars_eq, List.mem_append] at hc
    rcases hc with hc | hc
    · have hname : (chars "sha256:").all (fun c => decide (c.toNat < 0x10000)) = true := by decide
      exact of_decide_eq_true (List.all_eq_true.mp hname c hc)
    · exact hexLower_basic ((encodeHex_digits _).2 c hc)
  rw [Js.test_eq_full hbasic]
  exact permissionRevisionOf_format C site a

/-! ## Reconcilers -/

/-- A call of `reconcile` that is under way. -/
structure Thread where
  config : Config
  /-- The row it was called with, and with it the claim it works under. -/
  row : ShellSession
  rest : Routine (Option ShellSession)

/-- `reconcile(row, reclaimed)`. -/
def Thread.start (config : Config) (reclaimed : Bool) (row : ShellSession) : Thread where
  config := config
  row := row
  rest := reconcile config row reclaimed

/-- The world after the next request of a call is answered, and the call if it goes on. -/
def Thread.next (C : ShellCrypto) (e : Stamp) (w : World) (th : Thread) : World × Option Thread :=
  match th.rest with
  | .pure none => (w, none)
  | .pure (some row) => (w, some (.start th.config false row))
  | .throw _ => (w, none)
  | .ask q next => ((answer C e q w).2, some { th with rest := next (answer C e q w).1 })

/-- The world and the calls of `reconcile` in all processes. -/
structure Fleet where
  world : World
  threads : List Thread

/-- The calls only `reconcile` makes. -/
def Call.reconciles : Call → Bool
  | .transitionShellSession _ => true
  | .reprojectShellRuntime _ => true
  | _ => false

/-- A step of the system that no call of `reconcile` makes. -/
def Action.outside : Action → Bool
  | .call _ c => !c.reconciles
  | _ => true

/-- One step of the reconcilers and of what is around them.  `tick` goes over the rows of a
claim one after the other and over its active rows before that, and the next `tick` does not
wait for it, so the calls of `reconcile` may be under way in any number and order. -/
inductive Move where
  /-- Another call of the database, or a step of the identity system. -/
  | act (a : Action)
  /-- `claimSessions`, and `reconcile(row, true)` for each row. -/
  | claim (config : Config) (t : Clock) (locked : List Uuid)
  /-- `inspectClaim`, and `reconcile(fresh, false)`. -/
  | inspect (config : Config) (t : Clock) (f : Fence)
  /-- `revokeSessionAuthority`, and `reconcile(revoked)`. -/
  | revoke (config : Config) (t : Clock) (f : Fence)
  /-- The next request of a call of `reconcile` is answered. -/
  | step (i : Nat) (e : Stamp)
  /-- A call of `reconcile` ends with its process. -/
  | crash (i : Nat)
  /-- A Pod is lost. -/
  | vanish (name : String)

/-- The reconcilers with some new calls, in a new database. -/
def Fleet.spawn (s : Fleet) (config : Config) (reclaimed : Bool) (db : Shell)
    (rows : List ShellSession) : Fleet where
  world := { s.world with shell := db }
  threads := s.threads ++ rows.map (Thread.start config reclaimed)

def Fleet.perform (C : ShellCrypto) : Move → Fleet → Fleet
  | .act a, s =>
      if a.outside then
        { s with world := { s.world with shell := ConsoleShell.perform C a s.world.shell } }
      else s
  | .claim config t locked, s =>
      match claimSessions config t locked s.world.shell with
      | .ok (db, rows) => s.spawn config true db rows
      | .error _ => s
  | .inspect config t f, s =>
      s.spawn config false s.world.shell (inspectShellClaim t f s.world.shell).toList
  | .revoke config t f, s =>
      match revokeShellSessionAuthority C t f (some "PermissionRevisionChanged") s.world.shell with
      | .ok (db, row) => s.spawn config false db [row]
      | .error _ => s
  | .step i e, s =>
      match s.threads[i]? with
      | none => s
      | some th => {
          world := (th.next C e s.world).1
          threads := match (th.next C e s.world).2 with
            | some th' => s.threads.set i th'
            | none => s.threads.eraseIdx i }
  | .crash i, s => { s with threads := s.threads.eraseIdx i }
  | .vanish name, s =>
      { s with world := { s.world with
          cluster := s.world.cluster.keep fun p => decide (p.name ≠ name) } }

/-- No call of `reconcile` is under way, and there is no Pod. -/
def Fleet.installed (db : Shell) : Fleet := ⟨⟨db, .empty⟩, []⟩

end ConsoleShell
