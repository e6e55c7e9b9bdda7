import OpenSphere.Registry.GitHub
import OpenSphere.System.Pool

/-!
# The registry credential broker

The functions of the broker as programs that read and write Secrets, ask the provider and
record what they do.  The state of the credentials is one Secret, and each namespace has a pull
Secret.  Kubernetes accepts a write only where the resource version is the stored one; the answer
to a write that was accepted may be lost, and a write that was given up may still arrive.

The calls of all replicas are one pool.
-/

open System (Program)

namespace Registry

structure Service extends Platform where
  clientId : String
  /-- There is a `recordResult`. -/
  audited : Bool
  /-- There is an `installationImages`. -/
  installation : Bool

/-- The state, and the resource version of the Secret it is from. -/
structure Snapshot where
  version : Nat
  state : State
deriving DecidableEq

/-- A pull Secret, with the data and the annotation that the broker reads. -/
structure PullSecret where
  version : Nat
  type : String
  generation : Option String
  dockerconfigjson : Option String
deriving DecidableEq

/-- What `recordResult` is given. -/
structure AuditEvent where
  operationId : Option String
  eventId : String
  outcome : String
  generation : String
  code : String
  actorRef : String

inductive Request where
  | getState
  | putState (version : Nat) (state : State)
  | getPull (ns : String)
  | putPull (ns : String) (secret : PullSecret)
  | clock
  | newId
  | installationImages
  | assertAuthority (operation : Operation)
  | recordResult (event : AuditEvent)
  | start (clientId : String)
  | poll (flow : Flow)
  | refresh (current : Credentials)
  | inspect (token username userId : String)
  | pat (username token : String)
  | verifyImages (credentials : Credentials) (images : List String)

/-- What an answer holds.  A Secret that is not there is none. -/
@[reducible] def Request.Result : Request → Type
  | .getState => Snapshot
  | .putState _ _ => Snapshot
  | .getPull _ => Option PullSecret
  | .putPull _ _ => Option PullSecret
  | .clock => Int
  | .newId => String
  | .installationImages => List String
  | .assertAuthority _ => Unit
  | .recordResult _ => Unit
  | .start _ => Flow
  | .poll _ => Polled
  | .refresh _ => Credentials
  | .inspect _ _ _ => Identity
  | .pat _ _ => Credentials
  | .verifyImages _ _ => Unit

abbrev Routine := Program Failure Request Request.Result

/-- `await q`. -/
abbrev await (q : Request) : Routine q.Result := Program.await q

def now : Routine Int := await .clock

def newId : Routine String := await .newId

/-! ## The Secret store -/

/-- `fault(code)` of the store. -/
def storeFault (code : String) : Failure := ⟨"Registry credential authority: " ++ code, some code⟩

/-- `store.read()`. -/
def read (S : Service) : Routine Snapshot := do
  let secret : Snapshot ← await .getState
  let state ← Program.lift (parseRegistryState S.dateParse secret.state)
  return ⟨secret.version, state⟩

/-- `store.write(snapshot, state)`. -/
def write (S : Service) (snapshot : Snapshot) (state : State) : Routine Snapshot := do
  let secret : Snapshot ← await (.putState snapshot.version state)
  let state ← Program.lift (parseRegistryState S.dateParse secret.state)
  return ⟨secret.version, state⟩

def assertFence (fence : Snapshot) : Routine Unit := do
  let current : Snapshot ← await .getState
  if current.version ≠ fence.version then .throw (storeFault "CredentialConflict") else pure ()

def PullSecret.matches (p : PullSecret) (generation expected : String) : Bool :=
  p.dockerconfigjson == some expected && p.generation == some generation

def PullSecret.next (p : PullSecret) (generation expected : String) : PullSecret :=
  { p with generation := some generation, dockerconfigjson := some expected }

/-- The first loop of `synchronize`, for one namespace. -/
def propagate (generation expected : String) (fence : Snapshot) (ns : String) : Routine Unit := do
  let old : Option PullSecret ← await (.getPull ns)
  match old with
  | none => .throw (storeFault "RegistryPullSecretMissing")
  | some old =>
      if old.type ≠ "kubernetes.io/dockerconfigjson" then
        .throw (storeFault "RegistryPullSecretMissing")
      else if old.matches generation expected then pure ()
      else do
        assertFence fence
        let value : Option PullSecret ← await (.putPull ns (old.next generation expected))
        if value.isNone then .throw (storeFault "RegistryPullSecretMissing") else pure ()

/-- The second loop of `synchronize`, for one namespace. -/
def verify (generation expected : String) (ns : String) : Routine Unit := do
  let value : Option PullSecret ← await (.getPull ns)
  if value.any (·.matches generation expected) then pure ()
  else .throw (storeFault "CredentialPropagationPending")

/-- `for (const x of l) { await f(x) }`. -/
def forEach (f : String → Routine Unit) : List String → Routine Unit
  | [] => pure ()
  | x :: l => do
      f x
      forEach f l

/-- `store.synchronize(credentials, generation, fence)`. -/
def synchronize (credentials : Option Credentials) (generation : String) (fence : Snapshot) :
    Routine (List String) := do
  let expected := pullSecretData credentials generation
  forEach (propagate generation expected fence) registryNamespaces
  forEach (verify generation expected) registryNamespaces
  assertFence fence
  return registryNamespaces

/-! ## The broker -/

/-- `fault(code)` of the broker. -/
def fault (code : String) : Failure := ⟨"Registry credential lifecycle: " ++ code, some code⟩

def available (S : Service) : Routine Snapshot := do
  let snapshot ← read S
  if snapshot.state.work.isSome || snapshot.state.pending.isSome || snapshot.state.operation.isSome
  then .throw (fault "CredentialConflict")
  else return snapshot

/-- The event that `result(state, outcome, code)` records. -/
def State.event (st : State) (outcome code : String) : AuditEvent where
  operationId := st.operation.map Operation.operationId
  eventId := ((st.rotation.map Rotation.eventId).or (st.work.map Work.id)).getD st.generation
  outcome := outcome
  generation := st.generation
  code := code
  actorRef := (st.operation.map Operation.actorRef).getD "system:registry-credential-broker"

def result (S : Service) (st : State) (outcome code : String) : Routine Unit :=
  if S.audited then await (.recordResult (st.event outcome code))
  else .throw (fault "CredentialAuditUnavailable")

/-- `beginOAuth` once its work is stored, inside `try`. -/
def startAuthorization (S : Service) (snapshot : Snapshot) (operation : Operation) :
    Routine Snapshot := do
  let _ ← await (.assertAuthority operation)
  let flow : Flow ← await (.start S.clientId)
  write S snapshot { snapshot.state with
    work := none
    pending := some ⟨operation, flow⟩
    phase := .awaitingAuthorization }

def State.startFailed (st : State) : State := { st with
  work := none
  pending := none
  operation := none
  phase := if st.credentials.isSome then .degraded else .reauthorizationRequired
  errorCode := some "AuthorizationStartFailed" }

/-- `beginOAuth({operationId, session})`.  What it shows of the state is left out. -/
def beginOAuth (S : Service) (operation : Operation) : Routine Unit :=
  if S.clientId = "" then .throw (fault "OpenSphereOAuthClientIdRequired")
  else do
    let snapshot ← available S
    let id ← newId
    let startedAt ← now
    let snapshot ← write S snapshot { snapshot.state with
      operation := some operation
      work := some ⟨id, .deviceStart, startedAt⟩
      errorCode := none }
    ((startAuthorization S snapshot operation) >>= fun _ => pure ()).tryCatch fun _ => do
      result S snapshot.state "failed" "AuthorizationStartFailed"
      let _ ← write S snapshot snapshot.state.startFailed
      .throw (fault "AuthorizationStartFailed")

/-- `provider.verifyImages(credentials, images)` where there are images. -/
def verifyImages (credentials : Credentials) (images : List String) : Routine Unit :=
  if images.isEmpty then pure () else await (.verifyImages credentials images)

def State.renewed (st : State) (credentials : Option Credentials) (generation : String)
    (phase : Phase) : State := { st with
  credentials := credentials
  generation := generation
  phase := phase
  observation := none
  errorCode := none }

def replace (S : Service) (operation : Operation) (username token : String) : Routine Unit := do
  let snapshot ← available S
  let checked : Credentials ← await (.pat username token)
  verifyImages checked snapshot.state.images
  Program.lift (validateCredential S.dateParse checked)
  let _ ← await (.assertAuthority operation)
  let id ← newId
  let _ ← write S snapshot
    { snapshot.state.renewed (some checked) id .pending with operation := some operation }
  return ()

def remove (S : Service) (operation : Operation) : Routine Unit := do
  let snapshot ← available S
  let _ ← await (.assertAuthority operation)
  let id ← newId
  let _ ← write S snapshot { snapshot.state.renewed none id .removing with operation := some operation }
  return ()

def State.withImages (st : State) (images : List String) : State := { st with
  images := images
  observation := none
  phase :=
    if st.phase = .reauthorizationRequired then .reauthorizationRequired
    else if st.credentials.isSome then .pending
    else .anonymous }

/-- `tick()` up to `before`: the images of the installation are taken over. -/
def takeImages (S : Service) (snapshot : Snapshot) : Routine Snapshot :=
  if S.installation && snapshot.state.work.isNone && snapshot.state.pending.isNone then do
    let images : List String ← await .installationImages
    let _ ← Program.lift (initialRegistryState S.dateParse snapshot.state.credentials images
      snapshot.state.generation)
    if images.isPerm snapshot.state.images then return snapshot
    else write S snapshot (snapshot.state.withImages images)
  else return snapshot

def State.interrupted (st : State) : State := { st with
  phase := .reauthorizationRequired
  work := none
  pending := none
  operation := none
  errorCode := some "InterruptedCredentialOperation" }

/-- `Boolean(life?.refreshToken && life.expiresAt && Date.parse(life.expiresAt)-now()<=15*60*1000)`. -/
def refreshDue (S : Service) (st : State) (now : Int) : Bool :=
  st.refreshToken.isSome && ((st.credentials.bind fun c =>
    (truthy c.lifecycle.expiresAt).bind S.dateParse).any fun t => decide (t - now ≤ 15 * 60 * 1000))

/-- `!before.observation || now()-Date.parse(before.observation.verifiedAt)>=15*60*1000`. -/
def checkDue (S : Service) (st : State) (now : Int) : Bool :=
  match st.observation with
  | none => true
  | some o => (S.dateParse o.verifiedAt).any fun t => decide (15 * 60 * 1000 ≤ now - t)

/-- What `tick` does with a device authorization. -/
def pollAuthorization (S : Service) (snapshot : Snapshot) (before : State) (pending : Pending) :
    Routine Unit := do
  let _ ← await (.assertAuthority pending.operation)
  let response : Polled ← await (.poll pending.flow)
  match response with
  | .pending flow => do
      let _ ← write S snapshot { snapshot.state with work := none, pending := some { pending with flow := flow } }
      return ()
  | .authorized credentials => do
      Program.lift (validateCredential S.dateParse credentials)
      verifyImages credentials before.images
      let _ ← await (.assertAuthority pending.operation)
      let id ← newId
      let _ ← write S snapshot
        { snapshot.state.renewed (some credentials) id .pending with work := none, pending := none }
      return ()

/-- What `tick` does with credentials that expire. -/
def refreshCredentials (S : Service) (snapshot : Snapshot) (before : State) (work : Work)
    (current : Credentials) : Routine Unit := do
  result S snapshot.state "accepted" "RefreshStarted"
  let credentials : Credentials ← await (.refresh current)
  Program.lift (validateCredential S.dateParse credentials)
  let id ← newId
  let _ ← write S snapshot { snapshot.state.renewed (some credentials) id .pending with
    work := none
    rotation := some ⟨work.id, before.generation⟩ }
  return ()

/-- The checks of `tick` before the credentials are propagated. -/
def checkCredentials (S : Service) (images : List String) (c : Credentials) : Routine Unit := do
  let _ ← await (.inspect c.token c.username c.lifecycle.userId)
  let time ← now
  if ((truthy c.lifecycle.expiresAt).bind S.dateParse).any (· ≤ time) then
    .throw (fault "CredentialExpired")
  else verifyImages c images

/-- The checks of `tick` before it propagates, which are for credentials only. -/
def checkStored (S : Service) (before : State) : Routine Unit :=
  match before.credentials with
  | some c => checkCredentials S before.images c
  | none => pure ()

/-- The state after all pull Secrets were seen to hold its generation. -/
def State.propagated (st before : State) (verifiedAt : String) (namespaces : List String) : State :=
  { st with
    phase := if before.credentials.isSome then .ready else .anonymous
    work := none
    pending := none
    operation := none
    rotation := none
    errorCode := none
    observation := some ⟨verifiedAt, namespaces, before.generation⟩ }

/-- What `tick` does with credentials that are to be in the pull Secrets. -/
def propagateCredentials (S : Service) (snapshot : Snapshot) (before : State) : Routine Unit := do
  checkStored S before
  let namespaces ← synchronize before.credentials before.generation snapshot
  result S snapshot.state "succeeded"
    (if before.credentials.isSome then "PullSecretsVerified" else "PullSecretsCleared")
  let time ← now
  let _ ← write S snapshot (snapshot.state.propagated before (S.isoDate time) namespaces)
  return ()

def permanent : List String := ["PermissionDenied", "RegistryPullDenied",
  "ReadOnlyPackagesScopeRequired", "IdentityMismatch", "ReauthorizationRequired", "CredentialExpired"]

def safeErrors : List String := permanent ++ ["ProviderUnavailable", "RegistryImageUnavailable",
  "RegistryDigestMismatch", "CredentialPropagationPending", "RegistryPullSecretMissing",
  "CredentialAuthorityUnavailable"]

def Failure.kept (e : Failure) : String :=
  match e.code with
  | some code => if safeErrors.contains code then code else "CredentialOperationFailed"
  | none => "CredentialOperationFailed"

def State.failed (st before : State) (reauthorize : Bool) (code : String) (retryAt : Int) : State :=
  { st with
    phase := if reauthorize then .reauthorizationRequired else .degraded
    work := none
    pending := none
    operation := if reauthorize then none else before.operation
    errorCode := some code
    retryAt := some retryAt }

/-- `tick()` where its work fails. -/
def recover (S : Service) (snapshot : Snapshot) (before : State) (kind : WorkKind) (e : Failure) :
    Routine Unit :=
  if e.code = some "CredentialConflict" then .throw e
  else do
    let reauthorize := kind = .refresh || kind = .devicePoll || permanent.contains e.kept
    result S snapshot.state (if reauthorize then "unknown" else "failed") e.kept
    let time ← now
    let _ ← write S snapshot (snapshot.state.failed before reauthorize e.kept (time + 60000))
    return ()

/-- The work that `tick` takes on. -/
inductive Job where
  | poll (pending : Pending)
  | refresh (current : Credentials)
  | propagate

def Job.kind : Job → WorkKind
  | .poll _ => .devicePoll
  | .refresh _ => .refresh
  | .propagate => .propagate

/-- `tick()` once its work is stored. -/
def carryOut (S : Service) (snapshot : Snapshot) (before : State) (work : Work) (job : Job) :
    Routine Unit :=
  (match job with
    | .poll pending => pollAuthorization S snapshot before pending
    | .refresh current => refreshCredentials S snapshot before work current
    | .propagate => propagateCredentials S snapshot before).tryCatch
      (recover S snapshot before job.kind)

/-- `tick()` from `snapshot=await change(snapshot,{work:...})` on. -/
def takeOn (S : Service) (snapshot : Snapshot) (job : Job) : Routine Unit := do
  let id ← newId
  let startedAt ← now
  let work : Work := ⟨id, job.kind, startedAt⟩
  let marked ← write S snapshot { snapshot.state with work := some work, retryAt := none }
  carryOut S marked snapshot.state work job

/-- `tick()` of a state without work that may need some. -/
def consider (S : Service) (snapshot : Snapshot) : Routine Unit := do
  let before := snapshot.state
  let retryTime ← now
  if before.retryAt.any (retryTime < ·) then return ()
  else
    let refreshTime ← now
    let checkTime ← now
    let pollTime ← now
    if before.phase = .anonymous && before.operation.isNone then return ()
    else if before.phase = .ready && before.pending.isNone && !refreshDue S before refreshTime &&
        !checkDue S before checkTime then return ()
    else
      match before.pending, before.credentials with
      | some pending, _ =>
          if pollTime < pending.flow.nextPollAt then return ()
          else takeOn S snapshot (.poll pending)
      | none, some c =>
          if refreshDue S before refreshTime then takeOn S snapshot (.refresh c)
          else takeOn S snapshot .propagate
      | none, none => takeOn S snapshot .propagate

def tick (S : Service) : Routine Unit := do
  let first ← read S
  let snapshot ← takeImages S first
  match snapshot.state.work with
  | some work => do
      let time ← now
      if time - work.startedAt < 120000 then return ()
      else do
        result S snapshot.state "unknown" "InterruptedCredentialOperation"
        let _ ← write S snapshot snapshot.state.interrupted
        return ()
  | none =>
      if snapshot.state.phase = .reauthorizationRequired then return ()
      else consider S snapshot

end Registry
