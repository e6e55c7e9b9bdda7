import OpenSphere.Codec.Base64
import OpenSphere.Codec.Utf8
import OpenSphere.Js.Json

/-!
# The state of the registry credentials

What Setup hands over to the Console and the broker keeps in one Secret: the credentials for
the image registry, the generation they are of, and how far they have come.  The pull Secrets
hold the text that `pullSecretData` makes of the credentials of a generation.
-/

open Sql
open Js (Value)

namespace Registry

def registryNamespaces : List String :=
  ["opensphere-console-data", "opensphere-console-change", "opensphere-monitoring",
    "opensphere-console", "opensphere-system", "opensphere-shell-sessions"]

/-- What is thrown.  An error that no `fault` makes has no code. -/
structure Failure where
  message : String
  code : Option String
deriving DecidableEq

def Failure.plain (message : String) : Failure := ⟨message, none⟩

/-! ## Credentials -/

/-- What is known of a credential besides its user and token. -/
structure Lifecycle where
  schemaVersion : String
  mode : String
  clientId : Option String
  userId : String
  scopes : List String
  expiresAt : Option String
  refreshToken : Option String
  refreshExpiresAt : Option String
  verifiedAt : Option String
deriving DecidableEq

structure Credentials where
  username : String
  token : String
  lifecycle : Lifecycle
deriving DecidableEq

/-- `x` where it is a text that is not empty. -/
def truthy (x : Option String) : Option String := x.filter (· ≠ "")

/-- `credentials.lifecycle.refreshToken`, where there is one. -/
def Credentials.refreshToken (c : Credentials) : Option String := truthy c.lifecycle.refreshToken

def letterOrDigit (c : Char) : Bool := lower c || upper c || digit c

/-- `/^[A-Za-z0-9](?:[A-Za-z0-9-]{0,38})$/`. -/
def loginFormat : String → Bool :=
  Js.test (.seq [.times letterOrDigit 1, .repeated (fun c => letterOrDigit c || c == '-') 0 (some 38)])

/-- `/^[A-Za-z0-9._-]{8,128}$/`. -/
def clientFormat : String → Bool :=
  Js.test (.repeated (fun c => letterOrDigit c || ['.', '_', '-'].contains c) 8 (some 128))

/-- The scopes of a credential that may read packages and nothing else. -/
def scopesValid (scopes : List String) : Bool :=
  scopes.contains "read:packages" && scopes.all (["read:packages", "offline_access"].contains ·)

/-- `Date.parse(x)` where it is a number. -/
abbrev DateParse := String → Option Int

def validateCredential (dateParse : DateParse) (c : Credentials) : Except Failure Unit :=
  let l := c.lifecycle
  if !loginFormat c.username || Js.length c.token < 16 || 4096 < Js.length c.token ||
      (chars c.token).any Js.whitespace || l.schemaVersion != "1.0" ||
      !(["pat", "github-device"].contains l.mode) || !Js.test (.many1 digit) l.userId ||
      !scopesValid l.scopes then
    .error (.plain
      "Unverified or excessive registry credential; use a dedicated read:packages credential")
  else if [l.expiresAt, l.refreshExpiresAt, l.verifiedAt].any
      (·.any fun t => (dateParse t).isNone) then
    .error (.plain "Invalid registry credential expiry")
  else if (truthy l.refreshToken).isSome && (l.mode != "github-device" ||
      !clientFormat (l.clientId.getD "") || (truthy l.refreshExpiresAt).isNone ||
      (truthy l.expiresAt).isNone) then
    .error (.plain "Invalid registry refresh authority")
  else .ok ()

/-! ## State -/

/-- A device authorization that GitHub has started. -/
structure Flow where
  clientId : String
  deviceCode : String
  userCode : String
  verificationUri : String
  expiresAt : String
  interval : Int
  nextPollAt : Int
deriving DecidableEq

structure Operation where
  operationId : String
  actorRef : String
  sessionId : String
deriving DecidableEq

structure Pending where
  operation : Operation
  flow : Flow
deriving DecidableEq

inductive WorkKind where
  | deviceStart
  | devicePoll
  | refresh
  | propagate
deriving DecidableEq

structure Work where
  id : String
  kind : WorkKind
  startedAt : Int
deriving DecidableEq

structure Rotation where
  eventId : String
  previousGeneration : String
deriving DecidableEq

/-- What was seen when all pull Secrets held a generation. -/
structure Observation where
  verifiedAt : String
  namespaces : List String
  generation : String
deriving DecidableEq

inductive Phase where
  | pending
  | ready
  | anonymous
  | removing
  | degraded
  | awaitingAuthorization
  | reauthorizationRequired
deriving DecidableEq

/-- `state.json`. -/
structure State where
  generation : String
  credentials : Option Credentials
  images : List String
  phase : Phase
  observation : Option Observation := none
  pending : Option Pending := none
  work : Option Work := none
  operation : Option Operation := none
  rotation : Option Rotation := none
  retryAt : Option Int := none
  errorCode : Option String := none
deriving DecidableEq

/-- `/^ghcr\.io\/opensphere-platform\/[a-z0-9][a-z0-9._-]*@sha256:[a-f0-9]{64}$/`. -/
def imageFormat : String → Bool :=
  Js.test (.seq [.text "ghcr.io/opensphere-platform/", .times (fun c => lower c || digit c) 1,
    .many (fun c => lower c || digit c || ['.', '_', '-'].contains c), .text "@sha256:",
    .times hexLower 64])

def initialRegistryState (dateParse : DateParse) (credentials : Option Credentials)
    (images : List String) (generation : String) : Except Failure State := do
  credentials.forM (validateCredential dateParse)
  if 128 < images.length || images.any fun i => !imageFormat i then
    .error (.plain "Invalid registry handoff image boundary")
  else
    .ok ⟨generation, credentials, images, if credentials.isSome then .pending else .anonymous,
      none, none, none, none, none, none, none⟩

/-- `parseRegistryState(secret)` of a Secret that holds a state. -/
def parseRegistryState (dateParse : DateParse) (state : State) : Except Failure State :=
  if !Js.test (.repeated (fun c => letterOrDigit c || c == '-') 1 (some 128)) state.generation then
    .error (.plain "Unsupported registry lifecycle contract")
  else do
    let _ ← initialRegistryState dateParse state.credentials state.images state.generation
    return state

def State.refreshToken (st : State) : Option String := st.credentials.bind Credentials.refreshToken

/-- `Buffer.from(t).toString('base64')`. -/
def base64 (t : List Char) : String := String.ofList (Codec.Base64.encode (Codec.Utf8.encode t))

/-- `pullSecretData(credentials, generation)['.dockerconfigjson']`. -/
def pullSecretData (credentials : Option Credentials) (generation : String) : String :=
  base64 (Value.stringify (match credentials with
    | some c => .ofList [("x-opensphere-credential-generation", .string generation),
        ("auths", .ofList [("ghcr.io", .ofList [("username", .string c.username),
          ("password", .string c.token),
          ("auth", .string (base64 (chars (c.username ++ ":" ++ c.token))))])])]
    | none => .ofList [("auths", .ofList [])]))

/-- The text that the pull Secrets have to hold. -/
def State.dockerconfigjson (st : State) : String := pullSecretData st.credentials st.generation

end Registry
