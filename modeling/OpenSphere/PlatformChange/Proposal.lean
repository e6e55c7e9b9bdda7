import OpenSphere.Codec.Utf8
import OpenSphere.FrontDoor.Service
import OpenSphere.Js.Json

/-!
# Requests for a platform change

The checks of `apps/console-api/src/platform-change-operations.mjs` on the body of a request.  The
desired state is any object.  It is walked with a stack of the objects and arrays still to be
visited, of which there may be so many, so deep, and none with a field that is named like a
credential.
-/

open Sql
open Js (Value Values Members)

namespace PlatformChange

/-! ## Failures -/

inductive Failure where
  /-- An error with a code, a status and what is known of its side effects. -/
  | fault (code message : String) (status : Nat) (sideEffect : String)
  /-- What the operation service throws. -/
  | service (f : FrontDoor.Failure)
deriving DecidableEq

def fail (message : String) : Failure := .fault "ValidationFailed" message 400 "none"

/-- `if (c) throw f`. -/
def throwIf (c : Bool) (f : Failure) : Except Failure Unit := if c then .error f else .ok ()

@[simp] theorem throwIf_eq_ok {c : Bool} {f : Failure} {u : Unit} :
    throwIf c f = .ok u ↔ c = false := by
  cases c <;> simp [throwIf]

def exact (value : Value) (fields : List String) (label : String) : Except Failure Unit :=
  match value with
  | .object ms =>
      let unknown := ms.keys.filter fun k => !(fields.contains k)
      throwIf (!unknown.isEmpty) (fail (label ++ " contains unknown fields: " ++ ", ".intercalate unknown))
  | _ => .error (fail (label ++ " must be an object"))

/-- `/[\r\n]/u.test(t)`. -/
def lineBreak (t : String) : Bool := (chars t).any fun c => c == '\r' || c == '\n'

/-- A text is outside the bounds of `text`. -/
def outside (t : String) (minimum maximum : Nat) : Bool :=
  decide (Js.length t < minimum) || decide (maximum < Js.length t) || lineBreak t

def text (value : Value) (name : String) (minimum maximum : Nat) : Except Failure String :=
  match FrontDoor.normalize value with
  | .error f => .error (.service f)
  | .ok normalized =>
      if outside normalized minimum maximum then
        .error (fail (name ++ " must contain " ++ toString minimum ++ ".." ++ toString maximum ++
          " characters"))
      else .ok normalized

/-! ## Names of credentials -/

/-- `t.toLowerCase()`, as far as its result is in ASCII: the Kelvin sign is the only other
character whose lower-case letter is. -/
def lowerChar (c : Char) : Char :=
  if upper c then Char.ofNat (c.toNat + 32) else if c.toNat = 0x212A then 'k' else c

def toLowerCase (t : String) : String := String.ofList ((chars t).map lowerChar)

/-- The character that a pattern with the flags `iu` takes a character for, among those of ASCII:
the long s and the Kelvin sign fold to letters. -/
def foldChar (c : Char) : Char := if c.toNat = 0x17F then 's' else lowerChar c

/-- `key.replaceAll(/([a-z])([A-Z])/gu, '$1_$2')`. -/
def splitCamel : List Char → List Char
  | a :: b :: cs => if lower a && upper b then a :: '_' :: splitCamel (b :: cs) else a :: splitCamel (b :: cs)
  | cs => cs

/-- The words of `SECRET_FIELD`. -/
def secretWords : List String :=
  ["authorization", "credential", "password", "privatekey", "secret", "token"]

/-- `SECRET_FIELD.test(t)`: what stands between two of the ends, `_` and `-` is one of the words. -/
def secretWord (cs : List Char) : Bool :=
  (cs.splitOnP fun c => c == '_' || c == '-').any fun part =>
    secretWords.any fun word => part.map foldChar == chars word

def secretField (key : String) : Bool := secretWord (splitCamel (chars key))

/-! ## The desired state -/

/-- `Object.entries(x)` of an array. -/
def Values.entries : Nat → Values → List (String × Value)
  | _, .nil => []
  | n, .cons x xs => (toString n, x) :: Values.entries (n + 1) xs

/-- `Object.entries(x)` of an object. -/
def Members.entries : Members → List (String × Value)
  | .nil => []
  | .cons k x ms => (k, x) :: Members.entries ms

/-- `Object.entries(x)` of an object or an array. -/
def entries : Value → List (String × Value)
  | .array xs => Values.entries 0 xs
  | .object ms => Members.entries ms
  | _ => []

/-- `x && typeof x === 'object'`. -/
def container : Value → Bool
  | .array _ => true
  | .object _ => true
  | _ => false

/-- The walk through the desired state.  The last element that was pushed is the first one here,
and so many may still be visited. -/
def walk : Nat → List (Value × Nat) → Except Failure Unit
  | _, [] => .ok ()
  | 0, _ :: _ => .error (fail "desiredState structure exceeds the bounded declaration policy")
  | n + 1, (value, depth) :: pending =>
      if 16 < depth then .error (fail "desiredState structure exceeds the bounded declaration policy")
      else if (entries value).any fun e => secretField e.1 then
        .error (fail "desiredState must not contain credential material")
      else
        walk n ((((entries value).filter fun e => container e.2).map fun e => (e.2, depth + 1)).reverse ++
          pending)

/-- `Buffer.byteLength(JSON.stringify(x))`. -/
def byteLength (x : Value) : Nat := (Codec.Utf8.encode x.stringify).length

/-! ## Proposals -/

def argocdVerificationTemplateId : String := "console.gitea.bootstrap.argocd-verification@1"

def argocdVerificationPath : String :=
  "platform-delivery/verification/opensphere-platform-delivery-verification.json"

def consumerPattern : Pattern :=
  .seq [.times lower 1,
    .repeated (orOneOf (fun c => lower c || digit c) ['.', '_', '-']) 1 (some 127)]

def actions : List String := ["apply", "configure", "delete", "rollback"]

/-- What `validateProposal` returns. -/
structure Proposal where
  consumerId : String
  action : String
  target : String
  reason : String
  desiredState : Members
  templateId : Option String

def proposalFields : List String :=
  ["consumerId", "action", "target", "reason", "desiredState", "templateId"]

/-- The checks of `validateProposal` on the desired state. -/
def validateDesiredState (value : Value) : Except Failure Members :=
  match value with
  | .object ms => do
      throwIf (decide (65536 < byteLength (.object ms))) (fail "desiredState must not exceed 65536 bytes")
      walk 2048 [(.object ms, 0)]
      return ms
  | _ => .error (fail "desiredState must be an object")

/-- `body.templateId == null ? null : text(body.templateId, 'templateId', 1, 128)`. -/
def optionalTemplate (value : Value) : Except Failure (Option String) :=
  if value.nullish then .ok none else some <$> text value "templateId" 1 128

def validateProposal (body : Value) : Except Failure Proposal := do
  exact body proposalFields "platform change request"
  let consumerId ← text (body.get "consumerId") "consumerId" 2 128
  throwIf (!Js.test consumerPattern consumerId) (fail "consumerId is invalid")
  let action ← toLowerCase <$> text ((body.get "action").or (.string "apply")) "action" 3 16
  throwIf (!actions.contains action) (fail "action must be apply, configure, delete, or rollback")
  let target ← text ((body.get "target").or (.string consumerId)) "target" 1 300
  let reason ← text (body.get "reason") "reason" 8 500
  let desiredState ← validateDesiredState (body.get "desiredState")
  let templateId ← optionalTemplate (body.get "templateId")
  throwIf (decide (templateId = some argocdVerificationTemplateId) || decide (target = argocdVerificationPath))
    (fail "templateId and target are reserved for the fixed Console bootstrap contract")
  return { consumerId, action, target, reason, desiredState, templateId }

end PlatformChange
