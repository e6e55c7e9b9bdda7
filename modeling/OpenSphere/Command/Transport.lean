import OpenSphere.Command.Ledger
import OpenSphere.Command.Schema
import OpenSphere.Js.Parse
import OpenSphere.Js.Stored

/-!
# The outcome of a command

What `execute` of the OS Shell records of a command that is not a read, from the octets that its
owner sends.  A response is read, parsed, and put into an outcome with what names the command, or
its failure is; the outcome is sent to `finish_command` as a JSON text.

A text is here what the language takes for one, with a half of a pair wherever the owner escapes
it or the message of a failure is cut.
-/

open Sql
open Js (Tree Utf16 Number literal)
open CommandSchema (Members get isText membersOf toText)

namespace CommandTransport

instance neZeroStatus : NeZero 1000 := ⟨by decide⟩

/-! ## Failures -/

structure Failure where
  message : Utf16
  status : Option (Fin 1000) := none
  code : Option String := none
  sideEffect : Option String := none

def fail {α : Type} (status : Fin 1000) (code : String) (message : Utf16) (sideEffect : String) :
    Except Failure α :=
  .error ⟨message, some status, some code, some sideEffect⟩

/-- What an object without a primitive value throws where a text is needed. -/
def typeError {α : Type} : Except Failure α :=
  .error { message := literal "Cannot convert object to primitive value" }

/-! ## Values -/

/-- `!!x`. -/
def truthy : Tree → Bool
  | .null => false
  | .boolean b => b
  | .number (.finite x) => decide (x.value ≠ 0)
  | .number (.infinite _) => true
  | .string s => !s.isEmpty
  | .array _ => true
  | .object _ => true

/-- `x || y`. -/
def orElse (x : Option Tree) (y : Tree) : Tree := (x.filter truthy).getD y

/-- `String(x)`. -/
def asText (x : Option Tree) : Except Failure Utf16 :=
  match x with
  | none => .ok (literal "undefined")
  | some x =>
      match toText x with
      | some t => .ok t
      | none => typeError

/-! ## `request` -/

/-- A response: its status, the pieces of its body, and whether the stream of them ends or
fails. -/
structure Response where
  status : Fin 1000
  chunks : List (List UInt8)
  ended : Bool

/-- The octets of the pieces, after so many, if there are 4 MiB at most. -/
def collect : ℕ → List (List UInt8) → Option (List UInt8)
  | _, [] => some []
  | size, chunk :: chunks =>
      if 4 * 1024 * 1024 < size + chunk.length then none
      else (collect (size + chunk.length) chunks).map (chunk ++ ·)

def readObject (r : Response) : Option Members :=
  match if r.ended then collect 0 r.chunks else none with
  | none => none
  | some octets =>
      match Js.Tree.parse (Codec.Utf8.decode octets) with
      | some (.object ms) => some ms
      | _ => none

/-- `response.ok`. -/
def accepted (r : Response) : Bool := decide (200 ≤ r.status.val ∧ r.status.val ≤ 299)

/-- `data.message || data.error || '...'`. -/
def messageOf (data : Members) : Tree :=
  orElse (get data "message") (orElse (get data "error")
    (.string (literal "명령 소유자가 요청을 거부했습니다.")))

/-- `request(...)` of a mutation, once there is a response or none. -/
def request : Option Response → Except Failure (Fin 1000 × Members)
  | none => fail 503 "OwnerUnavailable"
      (literal "OS Shell이 명령 실행 결과를 확인하지 못했습니다. 상태를 조회한 후 재시도하세요.") "unknown"
  | some r =>
      match readObject r with
      | none => fail 502 "OwnerContractInvalid"
          (literal "명령 소유자의 응답이 올바른 제한 내 JSON 객체가 아닙니다.") "unknown"
      | some data =>
          if accepted r then .ok (r.status, data)
          else do
            let message ← asText (some (messageOf data))
            fail r.status (if r.status = 409 then "StateConflict" else "OwnerRejected")
              (message.take 1000) (if 500 ≤ r.status.val then "unknown" else "none")

/-! ## `execute` -/

def ownerFormat : String → Bool :=
  Js.test (.seq [.times Command.lowerOrDigit 1,
    .repeated (orOneOf Command.lowerOrDigit ['-']) 0 (some 62)])

/-- `YYYY-MM-DDTHH:mm:ss.sssZ`. -/
def isoFormat : String → Bool :=
  Js.test (.seq [.times digit 4, .text "-", .times digit 2, .text "-", .times digit 2, .text "T",
    .times digit 2, .text ":", .times digit 2, .text ":", .times digit 2, .text ".",
    .times digit 3, .text "Z"])

structure Service where
  /-- `Date.parse(t)` where it is a number. -/
  dateParse : Utf16 → Option Int
  /-- `new Date(t).toISOString()`. -/
  isoDate : Int → String
  iso : ∀ t, isoFormat (isoDate t) = true

structure Call where
  command : String
  requestId : String
  owner : String
  /-- The owner is the Console itself. -/
  native : Bool
  commandValid : Command.commandFormat command = true
  requestIdValid : Command.uuidFormat requestId = true
  ownerValid : ownerFormat owner = true

/-- The clock at each `now()`. -/
structure Readings where
  late : Int
  early : Int
  observed : Int

structure Outcome where
  status : Fin 1000
  body : Members

def members (ms : List (String × Tree)) : Members := ms.map fun m => (literal m.1, m.2)

def text (t : String) : Tree := .string (literal t)

/-- `data.operationId || data.operation?.id || null`. -/
def operationId (data : Members) : Tree :=
  orElse (get data "operationId")
    (orElse ((get data "operation").bind fun x => get (membersOf x) "id") .null)

/-- The answer of a provider is about the request, and recent. -/
def bound (S : Service) (c : Call) (t : Readings) (data : Members) : Except Failure Bool := do
  let observedAt ← asText (get data "observedAt")
  return ((Tree.keys data).all fun k =>
      ["schema", "owner", "command", "requestId", "observedAt", "data"].any fun n =>
        decide (literal n = k)) &&
    isText "opensphere.owner-command-result/v1" (get data "schema") &&
    isText c.owner (get data "owner") && isText c.command (get data "command") &&
    isText c.requestId (get data "requestId") &&
    ((S.dateParse observedAt).any fun at' =>
      decide (t.late - at' ≤ 60000 ∧ at' ≤ t.early + 30000)) &&
    match get data "data" with
    | some (.object _) => true
    | _ => false

def succeeded (S : Service) (c : Call) (t : Readings) (status : Fin 1000) (data : Members) :
    Outcome where
  status := status
  body := members [("schema", text "opensphere.shell-command/v1"),
    ("controlPlane", text "OS-Shell"), ("command", text c.command),
    ("requestId", text c.requestId), ("owner", text c.owner), ("operationId", operationId data),
    ("observedAt", text (S.isoDate t.observed)), ("data", .object data)]

/-- `execute` inside `try`. -/
def attempt (S : Service) (c : Call) (t : Readings) (r : Option Response) :
    Except Failure Outcome := do
  let (status, data) ← request r
  if c.native then return succeeded S c t status data
  else
    let current ← bound S c t data
    if current then return succeeded S c t status (((get data "data").map membersOf).getD [])
    else
      fail 502 "OwnerContractInvalid"
        (literal "명령 소유자의 응답이 현재 요청에 결속되지 않았습니다.") "unknown"

/-- `x || y` of a status. -/
def statusOr (status : Option (Fin 1000)) (other : Fin 1000) : Fin 1000 :=
  (status.filter fun s => decide (s ≠ 0)).getD other

def failed (c : Call) (e : Failure) : Outcome where
  status := statusOr e.status 503
  body := members [("controlPlane", text "OS-Shell"), ("requestId", text c.requestId),
    ("code", text (e.code.getD "OwnerUnavailable")), ("message", .string e.message),
    ("sideEffect", text (e.sideEffect.getD "unknown"))]

/-- The outcome that `execute` builds. -/
def outcome (S : Service) (c : Call) (t : Readings) (r : Option Response) : Outcome :=
  match attempt S c t r with
  | .ok o => o
  | .error e => failed c e

/-- `JSON.stringify(outcome)::jsonb`, if the cast accepts it. -/
def Outcome.document (o : Outcome) : Option Jsonb :=
  (Tree.document (.object o.body)).map fun body =>
    .object [("status", .ofInt o.status.val), ("body", body)]

/-- `ledger.finish(a, requestId, digest, outcome)`. -/
def finish (now : Timestamp) (actor : Uuid) (c : Call) (digest : String) (o : Outcome)
    (db : Command.Ledger) : Except SqlError Command.Ledger := do
  let request ← orRaise (castUuid c.requestId) (.cast "uuid")
  let result ← orRaise o.document (.cast "jsonb")
  Command.finishCommand now ⟨actor, request, digest, result⟩ db

end CommandTransport
