import OpenSphere.Broker.Contract
import OpenSphere.Extension.Cleanup
import OpenSphere.Js.Coerce
import OpenSphere.System.Program

/-!
# The management of extensions

`setDesiredState` and `setBindingEnabled` read an object, check it, send a merge patch with the version
that was read, and check what the API server returns.  An object has to come back with another version
than it had.

The API server is as its documentation has it.  It refuses a patch of another version, and an object
that a patch does not change keeps its version.
-/

open Js (Value Members)
open System (Program)
open Broker (put)
open Catalog (dnsLabel)

namespace Extension.Management

deriving instance DecidableEq for Js.Value, Js.Values, Js.Members

/-! ## Failures -/

/-- What a failed call may have done. -/
inductive SideEffect where
  | none
  | unknown
  | present
deriving DecidableEq, Repr

/-- `fault(message, code, status, sideEffect, retryable)`.  A `TypeError` has no code. -/
structure Fault where
  message : String
  code : Option String
  status : Nat := 503
  sideEffect : SideEffect := .none
  retryable : Bool := false
deriving DecidableEq

def violation {α : Type} (message : String) : Except Fault α :=
  .error { message, code := some "AuthorityContractViolation" }

def typeError {α : Type} : Except Fault α :=
  .error { message := "Cannot convert object to primitive value", code := none }

/-- `String(x || '')`. -/
def textOf (x : Value) : Except Fault String :=
  match (x.or (.string "")).toText with
  | some t => .ok t
  | none => typeError

/-- `Number(x)`, where that is a safe integer. -/
def integerOf (x : Value) : Except Fault (Option Int) :=
  match x.numeric with
  | some t => .ok ((Js.numberOfText t).bind Js.Number.safeInteger)
  | none => typeError

/-! ## Objects -/

structure Metadata where
  name : String
  uid : String
  resourceVersion : String
  generation : Option Int
deriving DecidableEq

def namespaceMatches (inside : Option String) (found : Value) : Bool :=
  match inside with
  | none => found.nullish
  | some n => is found n

def metadata (resource : Value) (apiVersion kind : String) (inside : Option String) :
    Except Fault Metadata := do
  let source := Extension.metadata resource
  let name ← textOf (source.get "name")
  let uid ← textOf (source.get "uid")
  let resourceVersion ← textOf (source.get "resourceVersion")
  if is (resource.get "apiVersion") apiVersion && is (resource.get "kind") kind &&
      namespaceMatches inside (source.get "namespace") && dnsLabel name &&
      resourceVersionFormat (.string resourceVersion) && boundedText 1 128 (.string uid) then
    return ⟨name, uid, resourceVersion, ← integerOf (source.get "generation")⟩
  else violation "Kubernetes resource identity is invalid"

/-- `current.generation != null && current.generation >= 1`. -/
def Metadata.generated (m : Metadata) : Bool := m.generation.any (1 ≤ ·)

/-- `exactExtensionPackageScope(pkg).core`. -/
def exactExtensionPackageScope (pkg : Value) : Except Fault Bool :=
  match (Extension.metadata pkg |>.get "labels").get "opensphere.io/scope" with
  | .string "main-shell-core" => .ok true
  | .string "sub-shell" => .ok false
  | .string "workspace-extension" => .ok false
  | _ => .error { message := "UIPluginPackage scope is missing or unsupported",
                  code := some "PackageScopeInvalid", status := 409 }

/-- `packageIdentity(pkg, expectedName, namespace)`, and whether the package is core. -/
def packageIdentity (pkg : Value) (expectedName inside : String) : Except Fault (Metadata × Bool) := do
  let current ← metadata pkg "plugins.opensphere.io/v1alpha1" "UIPluginPackage" (some inside)
  if current.name ≠ expectedName || !current.generated then violation "UIPluginPackage identity changed"
  else return (current, ← exactExtensionPackageScope pkg)

def registrationIdentity (registration : Value) (expectedName inside : String) :
    Except Fault Metadata := do
  let current ← metadata registration "plugins.opensphere.io/v1alpha1" "UIPluginRegistration" (some inside)
  if current.name ≠ expectedName || !current.generated ||
      !is (((registration.get "spec").get "packageRef").get "name") expectedName ||
      !List.any ["Installed", "Enabled", "Disabled", "Uninstalled"]
        (is ((registration.get "spec").get "desiredState"))
  then violation "UIPluginRegistration contract is invalid"
  else return current

/-! ## Requests -/

/-- What a request is about. -/
inductive Target where
  | package (id : String)
  | registration (id : String)
  | binding (name : String)
deriving DecidableEq

inductive Request where
  | get (t : Target)
  | patch (t : Target) (body : Value)

/-- What an authority runs. -/
abbrev Run := Program Fault Request fun _ => Value

def request (q : Request) : Run Value := Program.await q

/-- `{ metadata: { resourceVersion }, spec }`. -/
def versioned (resourceVersion : String) (spec : Value) : Value :=
  .ofList [("metadata", .ofList [("resourceVersion", .string resourceVersion)]), ("spec", spec)]

/-- A call that changes one object. -/
structure Mutation where
  target : Target
  check : Value → Except Fault Metadata
  spec : Value
  identity : Value → Except Fault Metadata
  /-- The object that was returned is as asked. -/
  shows : Value → Metadata → Bool
  mismatch : String

/-- The metadata before and after. -/
structure Receipt where
  before : Metadata
  observed : Metadata
deriving DecidableEq

def Mutation.fault (m : Mutation) : Fault :=
  { message := m.mismatch, code := some "AuthorityContractViolation", sideEffect := .present }

def Mutation.apply (m : Mutation) : Run Receipt := do
  let current ← request (.get m.target)
  let before ← .lift (m.check current)
  let patched ← request (.patch m.target (versioned before.resourceVersion m.spec))
  let observed ← .lift (m.identity patched)
  if !m.shows patched observed || observed.uid ≠ before.uid ||
      observed.resourceVersion = before.resourceVersion then .throw m.fault
  else return ⟨before, observed⟩

/-! ## Calls -/

/-- `exactMutationText(value, minimum, maximum)`. -/
def exactMutationText (value : String) (minimum maximum : Nat) : Bool :=
  decide (minimum ≤ Js.length (Js.trim value) ∧ Js.length (Js.trim value) ≤ maximum) &&
    !(Sql.chars value).any fun c => decide (c.toNat ≤ 0x1F) || c.toNat == 0x7F

structure DesiredState where
  id : String
  desiredState : String
  actorRef : String
  reason : String

structure BindingEnabled where
  name : String
  enabled : Bool

def DesiredState.valid (a : DesiredState) : Bool :=
  dnsLabel a.id && ["Enabled", "Disabled", "Uninstalled"].contains a.desiredState &&
    exactMutationText a.actorRef 1 128 && exactMutationText a.reason 8 500

/-- What is checked of the package and the registration. -/
def DesiredState.check (a : DesiredState) (inside : String) (pkg registration : Value) :
    Except Fault Metadata := do
  let (_, core) ← packageIdentity pkg a.id inside
  let current ← registrationIdentity registration a.id inside
  if core && ["Disabled", "Uninstalled"].contains a.desiredState then
    .error { message := "shell-pinned core Extension cannot be disabled or uninstalled",
             code := some "CoreExtensionImmutable", status := 409 }
  else return current

/-- The change of the registration, beside its package. -/
def DesiredState.mutation (a : DesiredState) (inside : String) (pkg : Value) : Mutation where
  target := .registration a.id
  check := a.check inside pkg
  spec := .ofList [("desiredState", .string a.desiredState), ("approval", .ofList
    [("requestedBy", .string a.actorRef), ("reason", .string (Js.trim a.reason))])]
  identity registration := registrationIdentity registration a.id inside
  shows patched _ := is ((patched.get "spec").get "desiredState") a.desiredState
  mismatch := "Kubernetes returned mismatched desired-state evidence"

def setDesiredState (inside : String) (a : DesiredState) : Run Receipt :=
  if a.valid then do
    let pkg ← request (.get (.package a.id))
    (a.mutation inside pkg).apply
  else .throw { message := "Extension desired-state request is invalid", code := some "ValidationFailed",
                status := 400 }

/-- `NATIVE_BINDINGS`. -/
def nativeBindings : List String := ["os", "os-cli", "opensphere-os-cli"]

def BindingEnabled.valid (a : BindingEnabled) : Bool := dnsLabel a.name && !nativeBindings.contains a.name

def bindingIdentity (binding : Value) : Except Fault Metadata :=
  metadata binding "console.opensphere.io/v1alpha1" "CLIDownload" none

def BindingEnabled.check (a : BindingEnabled) (current : Value) : Except Fault Metadata := do
  let before ← bindingIdentity current
  if before.name ≠ a.name || !isArray ((current.get "spec").get "links") then
    violation "CLIDownload binding target is invalid"
  else return before

def BindingEnabled.mutation (a : BindingEnabled) : Mutation where
  target := .binding a.name
  check := a.check
  spec := .ofList [("enabled", .boolean a.enabled)]
  identity := bindingIdentity
  shows patched after := after.name = a.name && isBoolean ((patched.get "spec").get "enabled") a.enabled
  mismatch := "Kubernetes returned mismatched CLIDownload evidence"

def setBindingEnabled (a : BindingEnabled) : Run Receipt :=
  if a.valid then a.mutation.apply
  else .throw { message := "CLIDownload binding mutation is invalid", code := some "ValidationFailed",
                status := 400 }

/-! ## The API server -/

/-- The objects that are stored. -/
abbrev Cluster := Target → Option Value

/-- The members of an object.  Anything else has none. -/
def membersOf : Value → Members
  | .object ms => ms
  | _ => .nil

/-- An object without a member. -/
def without (k : String) : Members → Members
  | .nil => .nil
  | .cons k' x ms => if k' = k then without k ms else .cons k' x (without k ms)

mutual

/-- What a JSON merge patch makes of a value. -/
def mergePatch (x : Value) : Value → Value
  | .object ms => .object (mergeMembers (membersOf x) ms)
  | p => p

def mergeMembers (ns : Members) : Members → Members
  | .nil => ns
  | .cons k .null ms => mergeMembers (without k ns) ms
  | .cons k p ms => mergeMembers (put k (mergePatch (ns.get k) p) ns) ms

end

/-- What a write leaves in the metadata. -/
structure Stamp where
  resourceVersion : String
  generation : Value

def Stamp.onto (s : Stamp) (x : Value) : Value :=
  .object (put "metadata" (.object (put "generation" s.generation
    (put "resourceVersion" (.string s.resourceVersion) (membersOf (x.get "metadata"))))) (membersOf x))

/-- The object after a patch.  One that does not change keeps its version. -/
def patched (s : Stamp) (x body : Value) : Value :=
  if mergePatch x body = x then x else s.onto (mergePatch x body)

/-- What becomes of a request. -/
inductive Fate where
  | answered (s : Stamp)
  /-- Refused with a status. -/
  | refused (status : Nat)
  /-- Nothing comes back, from the API server or on the way to it. -/
  | lost (s : Stamp) (arrived : Bool)
  /-- What comes back is too long or no JSON. -/
  | unreadable (s : Stamp)

/-- The failure of a request that was refused. -/
def refusal (status : Nat) (sideEffect : SideEffect) : Fault where
  message := "Kubernetes management request failed with HTTP " ++ toString status
  code := some (if status = 404 then "ResourceNotFound" else if status = 409 then "WriteConflict"
    else if 500 ≤ status then "AuthorityUnavailable" else "OwnerRejected")
  status := if status = 404 then 404 else if status = 409 then 409 else if 500 ≤ status then 503 else 403
  sideEffect := sideEffect
  retryable := status = 409 || decide (500 ≤ status)

def unavailable (sideEffect : SideEffect) : Fault where
  message := "Kubernetes management authority is unavailable"
  code := some "AuthorityUnavailable"
  sideEffect := sideEffect
  retryable := true

def unreadable {α : Type} : Except Fault α := violation "Kubernetes response is invalid JSON"

def read (e : Fate) (t : Target) (w : Cluster) : Except Fault Value :=
  match e with
  | .answered _ => match w t with
      | some x => .ok x
      | none => .error (refusal 404 .none)
  | .refused status => .error (refusal status .none)
  | .lost .. => .error (unavailable .none)
  | .unreadable _ => unreadable

/-- The patch where it arrives, unless the object is of another version. -/
def write (s : Stamp) (t : Target) (body : Value) (w : Cluster) : Except Fault Value × Cluster :=
  match w t with
  | none => (.error (refusal 404 .unknown), w)
  | some x =>
      if (x.get "metadata").get "resourceVersion" = (body.get "metadata").get "resourceVersion" then
        (.ok (patched s x body), Function.update w t (some (patched s x body)))
      else (.error (refusal 409 .unknown), w)

def answer (e : Fate) (q : Request) (w : Cluster) : Except Fault Value × Cluster :=
  match q with
  | .get t => (read e t w, w)
  | .patch t body => match e with
      | .answered s => write s t body w
      | .refused status => (.error (refusal status .unknown), w)
      | .lost s arrived => (.error (unavailable .unknown), if arrived then (write s t body w).2 else w)
      | .unreadable s => (unreadable, (write s t body w).2)

end Extension.Management
