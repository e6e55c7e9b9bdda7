import OpenSphere.Command.Ledger
import OpenSphere.System.Pool

/-!
# The command service

`execute` of the OS Shell as a program.  It reads who asks and what for, and for a command
that is not a read it claims the request in the ledger, sends it to its owner and records the
outcome.  Any of its requests may fail, and the answer of one that took effect may be lost.

The calls of all replicas are one pool: their world is the ledger and what owners were sent.
-/

open Sql
open ConsoleIdentity (Bytes encodeHex)
open ConsoleShell (Shell)
open Js (Value Values Members)
open System (Program)

namespace Command

structure Service where
  identityUrl : String
  /-- Whether there is a database. -/
  ledger : Bool
  sha256 : String → Bytes
  /-- `Date.parse(x)` where it is a number. -/
  dateParse : Value → Option Int
  /-- `new Date(t).toISOString()`. -/
  isoDate : Int → String

/-! ## Requests to other systems -/

/-- A response, with its body where that is a JSON object within the bounds. -/
structure Reply where
  status : Int
  data : Option Value

/-- Who asks, as the identity service says. -/
structure Projection where
  subjectId : Value
  sessionId : Value
  permissions : Values
  aal : String

structure OwnerCall where
  method : String
  url : String
  body : Option Value
  requestId : Value
  idempotencyKey : Option String
  /-- The command is not a read. -/
  mutation : Bool

structure Outcome where
  status : Int
  body : Value

structure Url where
  protocol : String
  username : String
  password : String
  hostname : String
  pathname : String
  search : String
  hash : String

structure Profile where
  channel : Value
  consoleUrl : Option Url

/-- What `execute` asks of others. -/
inductive Request where
  | loadProviders
  | me (token : String)
  | profile
  | clock
  | claim (actor : Projection) (requestId command : Value) (digest : String)
  | owner (actor : Projection) (call : OwnerCall)
  | finish (actor : Projection) (requestId : Value) (digest : String) (outcome : Outcome)

def Request.Result : Request → Type
  | .loadProviders => List Definition
  | .me _ => Reply
  | .profile => Option Profile
  | .clock => Int
  | .claim _ _ _ _ => Claim
  | .owner _ _ => Reply
  | .finish _ _ _ _ => Unit

abbrev Routine := Program Failure Request Request.Result

/-- `now()`. -/
def readClock : Routine Int := Program.await Request.clock

def readProfile : Routine (Option Profile) := Program.await Request.profile

def loadProviders : Routine (List Definition) := Program.await Request.loadProviders

/-! ## `request` and `actor` -/

/-- The first thousand UTF-16 units.  Half a pair at the end is left out. -/
def firstThousand (t : String) : String := String.ofList (go 1000 (chars t))
where
  go : Nat → List Char → List Char
    | _, [] => []
    | n, c :: cs =>
        let w := if c.toNat < 0x10000 then 1 else 2
        if w ≤ n then c :: go (n - w) cs else []

def sideEffectOf (mutation : Bool) : String := if mutation then "unknown" else "none"

/-- `request(...)` once the response is there: the status and the body. -/
def receive (mutation : Bool) : Except Failure Reply → Except Failure (Int × Value)
  | .error _ => fail 503 "OwnerUnavailable"
      "OS Shell이 명령 실행 결과를 확인하지 못했습니다. 상태를 조회한 후 재시도하세요."
      (sideEffectOf mutation)
  | .ok ⟨_, none⟩ => fail 502 "OwnerContractInvalid"
      "명령 소유자의 응답이 올바른 제한 내 JSON 객체가 아닙니다." (sideEffectOf mutation)
  | .ok ⟨status, some data⟩ => do
      if 200 ≤ status ∧ status ≤ 299 then return (status, data)
      else
        let message ← asText (((data.get "message").or (data.get "error")).or
          (.string "명령 소유자가 요청을 거부했습니다."))
        fail status (if status = 409 then "StateConflict" else "OwnerRejected")
          (firstThousand message) (sideEffectOf (mutation && decide (500 ≤ status)))

/-- `a.permissions.includes(p)`. -/
def Values.includes (p : String) : Values → Bool
  | .nil => false
  | .cons (.string t) xs => t == p || Values.includes p xs
  | .cons _ xs => Values.includes p xs

/-- `/^Bearer ([A-Za-z0-9_.-]{32,16384})$/`, with the token. -/
def bearerToken (authorization : String) : Option String :=
  let token := String.ofList ((chars authorization).drop 7)
  if Sql.startsWith authorization "Bearer " &&
      Js.test (.repeated (orOneOf (fun c => lower c || upper c || digit c) ['_', '.', '-']) 32
        (some 16384)) token then
    some token
  else none

structure Headers where
  /-- There is a cookie or a CSRF token. -/
  browser : Bool
  authorization : String

def projection (S : Service) (now : Int) (b : Value) : Option Projection := do
  let a := b.get "data"
  let observedAt ← S.dateParse (b.get "observedAt")
  if now - observedAt > 60000 ∨ observedAt > now + 30000 then none
  else
    match b.get "schemaVersion", b.get "authority", b.get "freshness", a.get "state",
        a.get "permissions", a.get "aal" with
    | .string "1.0", .string "SupabaseAuth", .string "fresh", .string "Active",
        .array permissions, .string aal =>
          let subject ← ((a.get "subjectId").or (.string "")).toText
          let session ← ((a.get "sessionId").or (.string "")).toText
          if uuidFormat subject && uuidFormat session && ["aal1", "aal2"].contains aal then
            some ⟨a.get "subjectId", a.get "sessionId", permissions, aal⟩
          else none
    | _, _, _, _, _, _ => none

/-- `actor(req)`: the token and the projection. -/
def actor (S : Service) (headers : Headers) : Routine (String × Projection) :=
  if headers.browser then
    .lift (refuse 403 "CredentialBoundaryRejected"
      "브라우저 자격 증명은 Console 인증 경계를 통해야 합니다.")
  else
    match bearerToken headers.authorization with
    | none => .lift (refuse 401 "AuthenticationRequired" "현재 사용자 자격 증명이 필요합니다.")
    | some token => .ask (.me token) fun reply => do
        let (_, b) ← Program.lift (receive false reply)
        let now ← readClock
        match projection S now b with
        | some a => pure (token, a)
        | none => .lift (refuse 503 "AuthorityUnavailable"
            "현재 사용자 권한을 검증할 수 없습니다.")

def localEdge : Option Profile → Bool
  | some ⟨.string "edge", some u⟩ =>
      u.protocol == "https:" && ["localhost", "127.0.0.1", "[::1]"].contains u.hostname &&
        u.username == "" && u.password == "" && u.search == "" && u.hash == "" && u.pathname == "/"
  | _ => false

def rolesFor (write : Bool) : List String :=
  if write then ["console.role.admin"]
  else ["console.role.admin", "console.role.operator", "console.role.viewer"]

def authorize (a : Projection) (write : Bool) : Routine Unit :=
  if !(rolesFor write).any (Values.includes · a.permissions) then
    .lift (refuse 403 "PermissionDenied" "현재 사용자에게 해당 관리 권한이 없습니다.")
  else if write && a.aal != "aal2" then do
    let profile ← readProfile
    if localEdge profile then pure ()
    else .lift (refuse 428 "MfaRequired" "MFA 재인증이 필요합니다.")
  else pure ()

/-! ## `execute` -/

structure Content where
  command : Value
  arguments : Value
  contract : Option String
  review : Option Value

def Content.of (body : Value) (d : Definition) : Content where
  command := body.get "command"
  arguments := body.get "arguments"
  contract := d.contract
  review := if (body.get "reviewRevision").truthy then some (body.get "reviewRevision") else none

/-- `{command, arguments, contractSha256, reviewRevision}`, with those that are there. -/
def Content.value (c : Content) : Value :=
  .ofList ([("command", c.command), ("arguments", c.arguments)] ++
    (c.contract.map fun t => ("contractSha256", Value.string t)).toList ++
    (c.review.map fun x => ("reviewRevision", x)).toList)

/-- `JSON.stringify(canonical({...}))`. -/
def Content.text (c : Content) : String := String.ofList c.value.canonical.stringify

def Content.digest (S : Service) (c : Content) : String :=
  "sha256:" ++ encodeHex (S.sha256 c.text)

structure Prepared where
  definition : Definition
  actor : Projection
  token : String
  content : Content

def provider (body : Value) : Routine (Option Definition) := do
  let command := (body.get "command").or (.string "")
  let own ← Program.lift (ownDefinition command)
  match own with
  | some _ => pure none
  | none => do
      let id ← Program.lift (asText command)
      if !commandFormat id then .lift commandNotFound
      else
        let providers ← loadProviders
        if (providers.map Definition.id).Nodup then
          pure (providers.find? fun d => stringOf (body.get "command") == some d.id)
        else .lift (refuse 503 "CommandProviderUnavailable" "중복된 명령 계약입니다.")

/-- `execute(req, body)` up to the claim. -/
def prepare (S : Service) (headers : Headers) (body : Value) : Routine Prepared := do
  let found ← provider body
  let d ← Program.lift (validate body found)
  let (token, a) ← actor S headers
  authorize a (!d.read)
  if d.requiredPermission.any fun p => !Values.includes p a.permissions then
    .lift (refuse 403 "PermissionDenied" "현재 사용자에게 모듈 설치 권한이 없습니다.")
  else if !d.read && !S.ledger then
    .lift (refuse 503 "CommandLedgerUnavailable" "OS Shell 실행 기록 저장소를 사용할 수 없습니다.")
  else pure ⟨d, a, token, .of body d⟩

def ownerCall (S : Service) (body : Value) (p : Prepared) : Except Failure OwnerCall :=
  match p.definition.kind with
  | .native => do
      let t ← target (body.get "command") (body.get "arguments") p.actor.subjectId
        (body.get "requestId")
      return ⟨t.method, S.identityUrl ++ t.path, t.body, body.get "requestId",
        t.keyed.map fun cs => "os-shell-install-" ++ encodeHex (S.sha256 (String.ofList cs)),
        !p.definition.read⟩
  | .provider origin _ =>
      .ok ⟨"POST", origin ++ "/api/commands", some body, body.get "requestId", none,
        !p.definition.read⟩

/-- `x === y` where one of them is a text. -/
def sameText (x y : Value) : Bool :=
  match x, y with
  | .string s, .string t => s == t
  | _, _ => false

/-- The answer of a provider is about the request, and recent. -/
def bound (S : Service) (body : Value) (d : Definition) (now : Int) (data : Value) : Bool :=
  match data with
  | .object ms =>
      (ms.keys.all (["schema", "owner", "command", "requestId", "observedAt", "data"].contains ·)) &&
        stringOf (data.get "schema") == some "opensphere.owner-command-result/v1" &&
        stringOf (data.get "owner") == some d.owner &&
        sameText (data.get "command") (body.get "command") &&
        sameText (data.get "requestId") (body.get "requestId") &&
        (S.dateParse (data.get "observedAt")).any (fun at' =>
          decide (now - at' ≤ 60000 ∧ at' ≤ now + 30000)) &&
        match data.get "data" with
        | .object _ => true
        | _ => false
  | _ => false

def succeeded (S : Service) (body : Value) (d : Definition) (status now : Int) (data : Value) :
    Outcome where
  status := status
  body := .ofList [("schema", .string "opensphere.shell-command/v1"),
    ("controlPlane", .string "OS-Shell"), ("command", body.get "command"),
    ("requestId", body.get "requestId"), ("owner", .string d.owner),
    ("operationId", ((data.get "operationId").or ((data.get "operation").get "id")).or .null),
    ("observedAt", .string (S.isoDate now)), ("data", data)]

/-- What the owner of a command returns: `execute` inside `try`. -/
def dispatch (S : Service) (body : Value) (p : Prepared) : Routine Outcome := do
  let call ← Program.lift (ownerCall S body p)
  .ask (.owner p.actor call) fun reply => do
    let (status, data) ← Program.lift (receive call.mutation reply)
    let now ← readClock
    match p.definition.kind with
    | .native => pure (succeeded S body p.definition status now data)
    | .provider _ _ =>
        if bound S body p.definition now data then
          pure (succeeded S body p.definition status now (data.get "data"))
        else
          .lift (fail 502 "OwnerContractInvalid"
            "명령 소유자의 응답이 현재 요청에 결속되지 않았습니다."
            (sideEffectOf (!p.definition.read)))

def failed (body : Value) (e : Failure) : Outcome where
  status := e.status.getD 503
  body := .ofList [("controlPlane", .string "OS-Shell"), ("requestId", body.get "requestId"),
    ("code", .string (e.code.getD "OwnerUnavailable")), ("message", .string e.message),
    ("sideEffect", .string (e.sideEffect.getD "unknown"))]

/-- What `execute` returns. -/
inductive Response where
  | fresh (outcome : Outcome)
  | replayed (result : Jsonb)

/-- `{...result, body: {...result.body, replayed: true}}`. -/
def replay (result : Jsonb) : Jsonb :=
  result.concat (.object [("body",
    ((result.get "body").getD (.object [])).concat (.object [("replayed", .ofBool true)]))])

def ledgerUnavailable : Failure :=
  ⟨"실행 기록을 확보하지 못해 변경을 중단했습니다.", some 503, some "CommandLedgerUnavailable",
    some "none"⟩

/-- What is thrown where the request was made with another content. -/
def idempotencyConflict : Failure :=
  ⟨"같은 requestId로 다른 명령 또는 입력을 실행할 수 없습니다.", some 409,
    some "IdempotencyConflict", some "none"⟩

def outcomePending : Failure :=
  ⟨"이미 접수된 요청의 결과가 아직 확인되지 않았습니다. 상태를 조회하세요. 자동 재실행하지 않습니다.",
    some 409, some "CommandOutcomePending", some "unknown"⟩

def recordUnavailable : Failure :=
  ⟨"실행 결과 저장을 확인하지 못했습니다. 같은 요청을 자동 재실행하지 말고 상태를 조회하세요.",
    some 503, some "CommandRecordUnavailable", some "unknown"⟩

/-- `execute(req, body)` of a request that was claimed. -/
def dispatched (S : Service) (body : Value) (p : Prepared) : Routine Response := do
  let outcome ← (dispatch S body p).tryCatch fun e => pure (failed body e)
  .ask (.finish p.actor (body.get "requestId") (p.content.digest S) outcome) fun
    | .ok _ => pure (.fresh outcome)
    | .error _ => .throw recordUnavailable

/-- What `execute` does with the answer to its claim. -/
def claimed (S : Service) (body : Value) (p : Prepared) : Except Failure Claim → Routine Response
  | .error _ => .throw ledgerUnavailable
  | .ok .conflict => .throw idempotencyConflict
  | .ok (.found true _) => dispatched S body p
  | .ok (.found false none) => .throw outcomePending
  | .ok (.found false (some result)) => pure (.replayed (replay result))

/-- `execute(req, body)` from the claim on. -/
def commit (S : Service) (body : Value) (p : Prepared) : Routine Response :=
  if p.definition.read then do
    let outcome ← dispatch S body p
    pure (.fresh outcome)
  else
    .ask (.claim p.actor (body.get "requestId") (body.get "command") (p.content.digest S))
      (claimed S body p)

def execute (S : Service) (headers : Headers) (body : Value) : Routine Response := do
  let p ← prepare S headers body
  commit S body p

/-! ## The world -/

structure Sent where
  subjectId : Value
  call : OwnerCall

structure World where
  ledger : Ledger
  sent : List Sent

/-- `$n::uuid` of a parameter.  An array is sent in braces, which no uuid has. -/
def uuidParameter : Value → Except SqlError Uuid
  | .string t => orRaise (castUuid t) (.cast "uuid")
  | _ => .error (.cast "uuid")

/-- `$n::text` of a parameter that has to pass for a command. -/
def textParameter : Value → Except SqlError String
  | .string t => .ok t
  | _ => .error (.check commandRequestSchema.name)

/-- The parameters of `ledger.claim`. -/
def claimArgs (a : Projection) (requestId command : Value) (digest : String) :
    Except SqlError ClaimArgs := do
  let actor ← uuidParameter a.subjectId
  let session ← uuidParameter a.sessionId
  let request ← uuidParameter requestId
  let command ← textParameter command
  return ⟨actor, session, request, command, digest, a.aal⟩

/-- The parameters of `ledger.finish`. -/
def finishArgs (a : Projection) (requestId : Value) (digest : String) (outcome : Outcome) :
    Except SqlError FinishArgs := do
  let actor ← uuidParameter a.subjectId
  let request ← uuidParameter requestId
  let result ← orRaise (Value.document (.ofList [("status", .number (decimal outcome.status)),
    ("body", outcome.body)])) (.cast "jsonb")
  return ⟨actor, request, digest, result⟩

structure Stamp where
  /-- The database does not take the call, or its answer does not arrive. -/
  down : Bool
  lost : Bool
  /-- The clock of the database. -/
  now : Timestamp
  /-- The answers of the others. -/
  providers : Except Failure (List Definition)
  reply : Except Failure Reply
  profile : Option Profile
  clock : Int

/-- An error of the database, whose text `execute` does not read. -/
def databaseError : Failure := { message := "database error" }

/-- A call of the database, with what it returns and the database it leaves. -/
def Stamp.commit {α : Type} (e : Stamp) (w : World) (x : Except SqlError (Ledger × α)) :
    Except Failure α × World :=
  match x with
  | .error _ => (.error databaseError, w)
  | .ok (db, y) =>
      if e.down then (.error databaseError, w)
      else (if e.lost then .error databaseError else .ok y, { w with ledger := db })

def answer (e : Stamp) (q : Request) (w : World) : Except Failure q.Result × World :=
  match q with
  | .loadProviders => (e.providers, w)
  | .me _ => (e.reply, w)
  | .profile => (.ok e.profile, w)
  | .clock => (.ok e.clock, w)
  | .claim a requestId command digest => e.commit w do
      let p ← claimArgs a requestId command digest
      claimCommand e.now p w.ledger
  | .owner a call => (e.reply, { w with sent := w.sent ++ [⟨a.subjectId, call⟩] })
  | .finish a requestId digest outcome => e.commit w do
      let p ← finishArgs a requestId digest outcome
      let db ← finishCommand e.now p w.ledger
      return (db, ())

/-- A call of `execute`. -/
structure Call where
  headers : Headers
  body : Value

/-- The calls of all replicas.  What else is in the database may change in any way. -/
def setting (S : Service) : System.Setting Failure Request Request.Result Response Call World Stamp
    Shell where
  program c := execute S c.headers c.body
  answer := answer
  change shell w := { w with ledger := { w.ledger with shell := shell } }

abbrev Calls := System.Pool Failure Request Request.Result Response Call World

abbrev Move := System.Move Call Stamp Shell

def Calls.initial (shell : Shell) : Calls where
  world := ⟨⟨shell, .empty⟩, []⟩
  tasks := []

def Calls.after (S : Service) (ms : List Move) (s : Calls) : Calls :=
  System.run (System.Pool.perform (setting S)) ms s

end Command
