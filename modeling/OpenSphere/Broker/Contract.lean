import OpenSphere.Identity.System
import OpenSphere.Js.Json

/-!
# What the session broker checks

The failures of the broker and of what it calls, the inputs it accepts, and what it reads from
the answers of Supabase Auth.  An error of the store is the one that `databaseError` makes of
the DETAIL of a failed statement, and an error of the client the one that `request` makes of a
response.
-/

open Sql
open Js (Value Members)

namespace Broker

/-! ## Failures -/

/-- What is thrown.  A `TypeError` has neither a code nor a status. -/
structure Failure where
  code : Option String
  message : String
  status : Option Nat
  sideEffect : Option String := none
deriving DecidableEq

def fail (code message : String) (status : Nat) : Failure := ⟨some code, message, some status, none⟩

def typeError (message : String) : Failure := ⟨none, message, none, none⟩

/-- `uncertain(error, message)` for an error that is an object. -/
def uncertain (error : Failure) : Failure := { error with sideEffect := some "unknown" }

/-- `if (c) fail(...)`. -/
def failIf (c : Bool) (f : Failure) : Except Failure Unit := if c then .error f else .ok ()

@[simp] theorem failIf_eq_ok {c : Bool} {f : Failure} {u : Unit} :
    failIf c f = .ok u ↔ c = false := by
  cases c <;> simp [failIf]

/-- The codes that `databaseError` knows, with their status and message. -/
def databaseErrors : List (String × Nat × String) := [
  ("ValidationFailed", 400, "operation request failed database validation"),
  ("ReasonRequired", 422, "operation reason is required"),
  ("SessionInvalid", 401, "active Console session is required"),
  ("SubjectAuthorityMissing", 403, "Console subject authority is unavailable"),
  ("StaleAuthorityRevision", 409, "session authority revision is stale"),
  ("PermissionDenied", 403, "permission denied"),
  ("StepUpRequired", 428, "recent aal2 is required"),
  ("IdempotencyMismatch", 409, "idempotency key belongs to a different request"),
  ("CsrfRejected", 403, "Console session CSRF validation failed"),
  ("SelfApprovalDenied", 403, "operation initiator cannot approve the same operation"),
  ("ApprovalNotRequired", 409, "operation does not require approval"),
  ("StaleRevision", 409, "approval policy revision is stale"),
  ("StaleOperationVersion", 409, "operation state version changed"),
  ("InvalidOperationState", 409, "operation is not in the required state"),
  ("ObservationMissing", 409, "required owner observation is missing"),
  ("ObservationMismatch", 409, "owner observation does not match the operation"),
  ("NotFound", 404, "operation was not found"),
  ("RefreshNotRequired", 409, "browser session access credential does not require refresh"),
  ("BootstrapComplete", 409, "initial administrator bootstrap is already complete"),
  ("RoleContinuityRequired", 409, "at least one Console administrator must remain"),
  ("InventoryLimitExceeded", 409,
    "managed identity inventory exceeds the bounded Console view"),
  ("IdempotencyReplayUnavailable", 409,
    "managed identity response material cannot be replayed"),
  ("Conflict", 409, "managed identity state conflicts with the request"),
  ("EnrollmentExpired", 410, "CLI enrollment expired"),
  ("ClaimBindingMismatch", 409, "operation does not match the typed owner boundary")]

def authorityUnavailable : Failure :=
  fail "AuthorityUnavailable" "Console authority database is unavailable" 503

def databaseError (e : SqlError) : Failure :=
  match databaseErrors.find? fun x => some x.1 == e.detail with
  | some (code, status, message) =>
      { fail code message status with
        sideEffect := if code = "IdempotencyReplayUnavailable" then some "unknown" else none }
  | none => authorityUnavailable

/-! ## Text -/

/-- `t.toLowerCase()`, which leaves a text in lower case alone. -/
structure Locale where
  toLowerCase : String → String
  idempotent : ∀ t, toLowerCase (toLowerCase t) = toLowerCase t

/-- `String(x || '')`. -/
def text (x : Value) : Except Failure String :=
  match (x.or (.string "")).toText with
  | some t => .ok t
  | none => .error (typeError "Cannot convert object to primitive value")

/-- `String(x || '').trim()`. -/
def trimmed (x : Value) : Except Failure String := Js.trim <$> text x

/-- `/[\r\n]/u.test(t)`. -/
def hasNewline (t : String) : Bool := (chars t).any fun c => c == '\r' || c == '\n'

/-- `/[\r\n\u0000-\u001f\u007f]/u.test(t)`. -/
def hasControl (t : String) : Bool := (chars t).any fun c => decide (c.toNat < 0x20) || c.toNat == 0x7F

/-- `[0-9a-f]` in either case. -/
def hexDigit (c : Char) : Bool := digit c || ['a', 'b', 'c', 'd', 'e', 'f', 'A', 'B', 'C', 'D', 'E',
  'F'].contains c

/-- `/^[0-9a-f]{8}-[0-9a-f]{4}-[1-5][0-9a-f]{3}-[89ab][0-9a-f]{3}-[0-9a-f]{12}$/iu`. -/
def subjectFormat : String → Bool :=
  Pattern.full (.seq [.times hexDigit 8, .text "-", .times hexDigit 4, .text "-",
    .times (['1', '2', '3', '4', '5'].contains ·) 1, .times hexDigit 3, .text "-",
    .times (['8', '9', 'a', 'b', 'A', 'B'].contains ·) 1, .times hexDigit 3, .text "-",
    .times hexDigit 12])

/-- `[^@\s]`. -/
def mailChar (c : Char) : Bool := c != '@' && !Js.whitespace c

/-- `/^[^@\s]+@[^@\s]+[.][^@\s]+$/u`. -/
def emailFormat : String → Bool :=
  Pattern.full (.seq [.many1 mailChar, .text "@", .many1 mailChar, .text ".", .many1 mailChar])

/-- `/^[a-z][a-z0-9._-]{1,n}$/u`. -/
def usernameFormat (n : Nat) : String → Bool :=
  Pattern.full (.seq [.times lower 1,
    .repeated (orOneOf (fun c => lower c || digit c) ['.', '_', '-']) 1 (some n)])

def outside (t : String) (lo hi : Nat) : Bool := Js.length t < lo || hi < Js.length t

def emailInvalid (email : String) : Bool := outside email 3 254 || !emailFormat email

/-! ## Inputs -/

def members (body : Value) (f : Failure) : Except Failure Members :=
  match body with
  | .object ms => .ok ms
  | _ => .error f

def hasUnknown (ms : Members) (allowed : List String) : Bool := ms.keys.any (!allowed.contains ·)

structure AdministratorInput where
  username : String
  displayName : String
  email : String
  password : String
deriving DecidableEq

def initialAdministratorInput (L : Locale) (body : Value) : Except Failure AdministratorInput := do
  let ms ← members body
    (fail "ValidationFailed" "initial administrator body must be an object" 400)
  let username ← L.toLowerCase <$> trimmed (ms.get "username")
  let displayName ← trimmed (ms.get "displayName")
  let email ← L.toLowerCase <$> trimmed (ms.get "email")
  let password ← text (ms.get "password")
  let passwordConfirm ← text (ms.get "passwordConfirm")
  failIf (hasUnknown ms ["username", "displayName", "email", "password", "passwordConfirm"] ||
      !usernameFormat 31 username || outside displayName 1 128 || emailInvalid email ||
      outside password 12 1024 || password != passwordConfirm)
    (fail "ValidationFailed" "initial administrator input is invalid" 400)
  return ⟨username, displayName, email, password⟩

def managedRoles : List String := ["console-admins", "console-operators", "console-viewers"]

def managedSubject (value : String) : Except Failure String := do
  failIf (!subjectFormat value) (fail "ValidationFailed" "managed identity subject is invalid" 400)
  return value

def managedReason (value : Value) : Except Failure String := do
  let reason ← trimmed value
  failIf (outside reason 8 500 || hasNewline reason)
    (fail "ValidationFailed" "managed identity reason is invalid" 400)
  return reason

def managedIdempotencyKey (value : String) : Except Failure String := do
  let key := Js.trim value
  failIf (outside key 8 256 || hasNewline key)
    (fail "ValidationFailed" "managed identity idempotency key is invalid" 400)
  return key

structure CreateInput where
  username : String
  displayName : String
  email : String
  roles : List String
  reason : String
  idempotencyKey : String
deriving DecidableEq

/-- `roles.map((role) => String(role).trim())`. -/
def roleTexts : Js.Values → Except Failure (List String)
  | .nil => .ok []
  | .cons x xs => do
      let role ← match x.toText with
        | some t => .ok (Js.trim t)
        | none => .error (typeError "Cannot convert object to primitive value")
      let roles ← roleTexts xs
      return role :: roles

/-- `Array.isArray(x) ? x.map(...) : []`. -/
def rolesOf : Value → Except Failure (List String)
  | .array xs => roleTexts xs
  | _ => .ok []

/-- `managedCreateInput(body, idempotencyKey)`.  Roles that pass are ASCII, where `≤` is the order
of `sort`. -/
def managedCreateInput (L : Locale) (body : Value) (idempotencyKey : String) :
    Except Failure CreateInput := do
  let ms ← members body
    (fail "ValidationFailed" "managed identity creation body must be an object" 400)
  let username ← L.toLowerCase <$> trimmed (ms.get "username")
  let displayName ← trimmed (ms.get "displayName")
  let email ← L.toLowerCase <$> trimmed (ms.get "email")
  let roles ← rolesOf (ms.get "roles")
  failIf (hasUnknown ms ["username", "displayName", "email", "roles", "reason"] ||
      !usernameFormat 62 username || outside displayName 1 120 || hasControl displayName ||
      emailInvalid email || !decide roles.Nodup || roles.any (!managedRoles.contains ·))
    (fail "ValidationFailed" "managed identity creation input is invalid" 400)
  let reason ← managedReason (ms.get "reason")
  let key ← managedIdempotencyKey idempotencyKey
  return ⟨username, displayName, email, roles.insertionSort (· ≤ ·), reason, key⟩

structure ProfileInput where
  displayName : String
  email : String
  reason : String
  idempotencyKey : String
deriving DecidableEq

def managedProfileInput (L : Locale) (body : Value) (idempotencyKey : String) :
    Except Failure ProfileInput := do
  let invalid := fail "ValidationFailed" "managed identity profile body is invalid" 400
  let ms ← members body invalid
  failIf (hasUnknown ms ["displayName", "email", "reason"]) invalid
  let displayName ← trimmed (ms.get "displayName")
  let email ← L.toLowerCase <$> trimmed (ms.get "email")
  failIf (outside displayName 1 120 || hasControl displayName || emailInvalid email)
    (fail "ValidationFailed" "managed identity profile input is invalid" 400)
  let reason ← managedReason (ms.get "reason")
  let key ← managedIdempotencyKey idempotencyKey
  return ⟨displayName, email, reason, key⟩

structure EnabledInput where
  enabled : Bool
  reason : String
  idempotencyKey : String
deriving DecidableEq

def boolean (x : Value) (f : Failure) : Except Failure Bool :=
  match x with
  | .boolean b => .ok b
  | _ => .error f

def managedEnabledInput (body : Value) (idempotencyKey : String) : Except Failure EnabledInput := do
  let invalid := fail "ValidationFailed" "managed identity enabled body is invalid" 400
  let ms ← members body invalid
  failIf (hasUnknown ms ["enabled", "reason"]) invalid
  let enabled ← boolean (ms.get "enabled") invalid
  let reason ← managedReason (ms.get "reason")
  let key ← managedIdempotencyKey idempotencyKey
  return ⟨enabled, reason, key⟩

/-! ## Responses of Supabase Auth -/

/-- A request that has no response, or one that is not `ok`. -/
inductive Trouble where
  | timeout
  | unreachable
  | status (n : Nat)
deriving DecidableEq

inductive Response (α : Type) where
  | document (x : α)
  /-- The response is `ok`, and its body is no document. -/
  | unreadable
  | trouble (t : Trouble)

/-- How a request takes a response. -/
structure Options where
  rejectedCode : String := "AuthenticationRequired"
  rejectedMessage : String := "email or password is invalid"
  rejectedStatus : Nat := 401
  rejectedStatuses : List Nat := [400, 401]

/-- What `request` throws where there is no response that is `ok`. -/
def Trouble.failure (o : Options) : Trouble → Failure
  | .timeout => fail "DependencyTimeout" "Supabase Auth timed out" 503
  | .unreachable => fail "AuthorityUnavailable" "Supabase Auth is unavailable" 503
  | .status n =>
      if o.rejectedStatuses.contains n then fail o.rejectedCode o.rejectedMessage o.rejectedStatus
      else if n = 429 then fail "RateLimited" "Supabase Auth rate limit was reached" 429
      else fail "AuthorityUnavailable" "Supabase Auth request failed" 503

/-- `request(path, options)`, with the response. -/
def request {α : Type} (o : Options) : Response α → Except Failure α
  | .document x => .ok x
  | .unreadable =>
      .error (fail "AuthorityUnavailable" "Supabase Auth returned an invalid response" 503)
  | .trouble t => .error (t.failure o)

/-- `request(path, {...options, expectEmpty: true})`. -/
def requestEmpty {α : Type} (o : Options) : Response α → Except Failure Unit
  | .document _ => .ok ()
  | .unreadable => .ok ()
  | .trouble t => .error (t.failure o)

/-! ## Users -/

/-- What Supabase Auth keeps of a user. -/
structure Account where
  email : String
  /-- `user_metadata`. -/
  metadata : Members
  /-- No ban is in force: `banned_until` is missing or past. -/
  enabled : Bool

structure User extends Account where
  id : Uuid

/-- What `managedProfile` returns, apart from the factors. -/
structure Profile where
  id : String
  username : String
  displayName : String
  email : String
  enabled : Bool
deriving DecidableEq

/-- `email.includes('@') ? email.split('@')[0] : ''`. -/
def localPart (email : String) : String :=
  if (chars email).contains '@' then String.ofList ((chars email).takeWhile (· != '@')) else ""

def managedProfile (L : Locale) (user : User) : Except Failure Profile := do
  let email := L.toLowerCase (Js.trim user.email)
  let username ← trimmed ((user.metadata.get "preferred_username").or (.string (localPart email)))
  let displayName ← trimmed
    ((user.metadata.get "display_name").or ((user.metadata.get "name").or (.string username)))
  failIf (decide (254 < Js.length email) || outside username 1 63 || outside displayName 1 120 ||
      hasControl (username ++ displayName))
    (fail "AuthorityUnavailable" "Supabase Auth returned an invalid managed-user profile" 503)
  return ⟨user.id.text, username, displayName, email, user.enabled⟩

/-- `{...metadata, [name]: x}`. -/
def put (name : String) (x : Value) : Members → Members
  | .nil => .cons name x .nil
  | .cons k y ms => if k = name then .cons k x ms else .cons k y (put name x ms)

end Broker
