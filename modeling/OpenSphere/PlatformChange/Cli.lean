import Mathlib.Data.List.Infix
import OpenSphere.Catalog.Objects
import OpenSphere.PlatformChange.Proposal

/-!
# Change plans of the command line

`cmd/os-cli/cmd/os/operator.go`: a plan is made of some flags and a file with the desired state,
saved under its digest, loaded and checked again, and applied by a request to the Console.  The
file is what `json.Unmarshal` reads of it, and so is a saved plan.
-/

open Sql
open Js (Value Values Members)
open Catalog (Hash marshal trimSpace)
open ConsoleIdentity (encodeHex)

namespace PlatformChange

/-- `len(t)`. -/
def bytes (t : String) : Nat := (Codec.Utf8.encode (chars t)).length

/-! ## The screening of secrets -/

/-- `unicode.ToLower(c)`, as far as its result is in ASCII: the dotted capital I and the Kelvin sign
are the only other characters whose lower-case letter is. -/
def lowerRune (c : Char) : Char := if c.toNat = 0x130 then 'i' else lowerChar c

/-- A key without `_` and `-`, in lower case. -/
def screened (key : String) : List Char :=
  ((chars key).filter fun c => !(c == '_' || c == '-')).map lowerRune

/-- `strings.Contains(t, word)`. -/
def mentions (t : List Char) (word : String) : Bool := decide (chars word <:+: t)

/-- `strings.HasSuffix(t, word)`. -/
def endsWith (t : List Char) (word : String) : Bool := (chars word).isSuffixOf t

/-- `secretLikePath` rejects a key. -/
def secretLike (key : String) : Bool :=
  let t := screened key
  mentions t "password" || mentions t "token" || mentions t "credential" || mentions t "privatekey" ||
    (mentions t "secret" && !endsWith t "secretref" && !endsWith t "secretname")

mutual

def keysOf : Value → List String
  | .array xs => keysOfAll xs
  | .object ms => keysOfMembers ms
  | _ => []

def keysOfAll : Values → List String
  | .nil => []
  | .cons x xs => keysOf x ++ keysOfAll xs

def keysOfMembers : Members → List String
  | .nil => []
  | .cons k x ms => k :: (keysOf x ++ keysOfMembers ms)

end

/-- `secretLikePath` finds something.  Which path it reports depends on the order in which Go
iterates over a map. -/
def secretLikePath (desired : Members) : Bool := (keysOfMembers desired).any secretLike

/-! ## Plans -/

structure ChangePlan where
  apiVersion : String
  kind : String
  id : String
  digest : String
  createdAt : String
  consoleUrl : String
  consumerId : String
  action : String
  target : String
  reason : String
  desiredState : Members
  rollbackOf : String

structure Manifest where
  /-- How many bytes it has. -/
  size : Nat
  /-- The object that `json.Unmarshal` reads, if it is one. -/
  content : Option Members

def readDesiredState (m : Manifest) : Option Members :=
  if 65536 < m.size then none
  else m.content.filter fun desired => !secretLikePath desired

def validConsumerId (value : String) : Bool :=
  decide (2 ≤ bytes value ∧ bytes value ≤ 128) && ((chars value).head?.any lower) &&
    (chars value).all (orOneOf (fun c => lower c || digit c) ['.', '_', '-'])

def digestInput (p : ChangePlan) : Value :=
  .object (.cons "ConsoleURL" (.string p.consoleUrl) (.cons "ConsumerID" (.string p.consumerId)
    (.cons "Action" (.string p.action) (.cons "Target" (.string p.target)
    (.cons "Reason" (.string p.reason) (.cons "RollbackOf" (.string p.rollbackOf)
    (.cons "DesiredState" (.object p.desiredState.canonical) .nil)))))))

def planDigest (h : Hash) (p : ChangePlan) : String :=
  "sha256:" ++ encodeHex (h.sha256 (marshal (digestInput p)))

def planId (h : Hash) (p : ChangePlan) : String :=
  encodeHex ((h.sha256 (marshal (digestInput p))).take 10)

/-- What `createPlan` is given. -/
structure PlanInput where
  consoleUrl : String
  /-- `flags[name]`. -/
  flags : String → String
  forcedAction : String
  rollbackOf : String
  /-- The file that a path names, if it can be read. -/
  files : String → Option Manifest
  /-- `validatePlanConsumer(cfg, consumer)` returns no error. -/
  registered : String → Bool
  now : String

def PlanInput.action (i : PlanInput) : String :=
  let action := String.ofList ((chars (trimSpace (i.flags "action"))).map lowerRune)
  let action := if i.forcedAction ≠ "" then i.forcedAction else action
  if action = "" then "apply" else action

def PlanInput.target (i : PlanInput) : String :=
  let target := trimSpace (i.flags "target")
  if target = "" then trimSpace (i.flags "consumer") else target

/-- The plan of some flags and a desired state, without its digest. -/
def PlanInput.draft (i : PlanInput) (desired : Members) : ChangePlan where
  apiVersion := "cli.opensphere.io/v1"
  kind := "GovernedChangePlan"
  id := ""
  digest := ""
  createdAt := i.now
  consoleUrl := i.consoleUrl
  consumerId := trimSpace (i.flags "consumer")
  action := i.action
  target := i.target
  reason := trimSpace (i.flags "reason")
  desiredState := desired
  rollbackOf := i.rollbackOf

def PlanInput.unusable (i : PlanInput) : Bool :=
  !validConsumerId (trimSpace (i.flags "consumer")) ||
    !(["apply", "configure", "rollback"].contains i.action) ||
    decide (i.target = "") || decide (300 < bytes i.target) || lineBreak i.target ||
    decide (bytes (trimSpace (i.flags "reason")) < 8) || decide (trimSpace (i.flags "file") = "")

def ChangePlan.sealed (h : Hash) (p : ChangePlan) : ChangePlan :=
  { p with digest := planDigest h p, id := planId h p }

/-- `createPlan(cfg, args, forcedAction, rollbackOf)`: the plan that is saved. -/
def createPlan (h : Hash) (i : PlanInput) : Option ChangePlan :=
  if i.unusable then none
  else do
    let manifest ← i.files (trimSpace (i.flags "file"))
    let desired ← readDesiredState manifest
    if i.flags "offline" ≠ "true" && !i.registered (trimSpace (i.flags "consumer")) then none
    else return (i.draft desired).sealed h

/-- `loadPlan(reference)` of a saved plan. -/
def loadPlan (h : Hash) (saved : ChangePlan) : Option ChangePlan :=
  if saved.apiVersion ≠ "cli.opensphere.io/v1" || saved.kind ≠ "GovernedChangePlan" || saved.id = "" ||
      saved.digest = "" then none
  else if saved.digest ≠ planDigest h saved || saved.id ≠ planId h saved then none
  else some saved

/-- `strings.TrimRight(t, "/")`. -/
def trimSlashes (t : String) : String := String.ofList ((chars t).rdropWhile (· == '/'))

/-- `strings.TrimPrefix(plan.Digest, "sha256:")`. -/
def digestText (digest : String) : String :=
  if (chars "sha256:").isPrefixOf (chars digest) then
    String.ofList ((chars digest).drop (chars "sha256:").length)
  else digest

/-- The body that `applyPlan` sends.  The members of a map stand in the order of their keys. -/
def applyBody (p : ChangePlan) : Value :=
  .object (.cons "action" (.string p.action) (.cons "consumerId" (.string p.consumerId)
    (.cons "desiredState" (.object p.desiredState.canonical)
    (.cons "idempotencyKey" (.string ("os-plan:" ++ digestText p.digest))
    (.cons "reason" (.string p.reason)
    (if p.rollbackOf ≠ "" then
      .cons "rollbackOf" (.string p.rollbackOf) (.cons "target" (.string p.target) .nil)
    else .cons "target" (.string p.target) .nil))))))

/-- `applyPlan(cfg, args, out)`: the body of the request for a saved plan, if there is one. -/
def applyPlan (h : Hash) (consoleUrl : String) (saved : ChangePlan) : Option Value := do
  let plan ← loadPlan h saved
  if trimSlashes plan.consoleUrl ≠ trimSlashes consoleUrl then none
  else return applyBody plan

end PlatformChange
