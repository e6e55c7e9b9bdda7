import OpenSphere.Catalog.Names
import OpenSphere.Js.Collation
import OpenSphere.Js.Json

/-!
# The plan of a cleanup

The extension controller deletes what the earlier revisions of an extension have left.  The plan
of it is made from what is in the collections of the extension: a resource that does not claim
the extension is passed over, one that does has to be exactly as the controller made it, and of
these the plan takes those that belong to a revision which is not retained.

Whatever is not as it has to be makes the plan fail.
-/

open Sql
open Js (Value Collation)
open Catalog (Hash dnsLabel digestFormat manifestFormat revisionName releaseToken)

namespace Extension

/-! ## Plans of extensions -/

structure Collection where
  basePath : String
  apiVersion : String
  kind : String
deriving DecidableEq

/-- What `buildExtensionWorkloadPlan` says of an extension. -/
structure Plan where
  name : String
  (namespace' : String)
  uid : String
  imageDigest : String
  manifestSha256 : String
  /-- The extension has one of the two profiles of the Cluster Manager. -/
  clusterRead : Bool
  name_label : dnsLabel name = true
  namespace_label : dnsLabel namespace' = true

def Plan.revision (h : Hash) (p : Plan) : String :=
  String.ofList (releaseToken h p.name p.imageDigest p.manifestSha256)

/-- `resources`, where they are and of which kind. -/
def Plan.resources (p : Plan) : List Collection :=
  (if p.clusterRead then []
    else [⟨"/api/v1/namespaces/" ++ p.namespace' ++ "/serviceaccounts", "v1", "ServiceAccount"⟩]) ++
  [⟨"/apis/apps/v1/namespaces/" ++ p.namespace' ++ "/deployments", "apps/v1", "Deployment"⟩,
    ⟨"/api/v1/namespaces/" ++ p.namespace' ++ "/services", "v1", "Service"⟩,
    ⟨"/apis/policy/v1/namespaces/" ++ p.namespace' ++ "/poddisruptionbudgets", "policy/v1",
      "PodDisruptionBudget"⟩]

/-- `allowed.get(basePath)`. -/
def Plan.allowed (p : Plan) (basePath : String) : Option Collection :=
  p.resources.find? fun c => c.basePath == basePath

/-! ## Failures -/

/-- What is thrown.  A `TypeError` has no code. -/
structure Fault where
  message : String
  code : Option String
deriving DecidableEq

/-- `fault(message, 'AuthorityContractViolation')`. -/
def violation {α : Type} (message : String) : Except Fault α :=
  .error ⟨message, some "AuthorityContractViolation"⟩

/-- `String(x || '')`. -/
def textOf (x : Value) : Except Fault String :=
  match (x.or (.string "")).toText with
  | some t => .ok t
  | none => .error ⟨"Cannot convert object to primitive value", none⟩

/-! ## Resources -/

/-- `x === t`. -/
def is (x : Value) (t : String) : Bool :=
  match x with
  | .string s => s == t
  | _ => false

/-- A text of some length without control characters. -/
def boundedText (lo hi : Nat) : Value → Bool
  | .string t => decide (lo ≤ Js.length t ∧ Js.length t ≤ hi) &&
      !(chars t).any fun c => decide (c.toNat ≤ 0x1F) || c.toNat == 0x7F
  | _ => false

/-- `/^[0-9A-Za-z._:-]{1,128}$/u`. -/
def resourceVersionFormat : Value → Bool
  | .string t => Pattern.full (.repeated
      (orOneOf (fun c => digit c || upper c || lower c) ['.', '_', ':', '-']) 1 (some 128)) t
  | _ => false

/-- `/^[a-f0-9]{20}$/u`. -/
def revisionFormat : String → Bool := Pattern.full (.times hexLower 20)

/-- `resource?.metadata || {}`. -/
def metadata (resource : Value) : Value := (resource.get "metadata").or (.object .nil)

/-- `metadata.labels == null ? {} : metadata.labels`. -/
def labels (resource : Value) : Value :=
  let x := (metadata resource).get "labels"
  if x.nullish then .object .nil else x

/-- `metadata.annotations == null ? {} : metadata.annotations`. -/
def annotations (resource : Value) : Value :=
  let x := (metadata resource).get "annotations"
  if x.nullish then .object .nil else x

/-- `metadata.ownerReferences == null ? [] : metadata.ownerReferences`. -/
def owners (resource : Value) : Value :=
  let x := (metadata resource).get "ownerReferences"
  if x.nullish then .array .nil else x

def plainObject : Value → Bool
  | .object _ => true
  | _ => false

/-- `Array.isArray(x)`. -/
def isArray : Value → Bool
  | .array _ => true
  | _ => false

def authoritative (p : Plan) (c : Collection) (resource : Value) : Bool :=
  is (resource.get "apiVersion") c.apiVersion && is (resource.get "kind") c.kind &&
    is ((metadata resource).get "namespace") p.namespace' &&
    boundedText 1 253 ((metadata resource).get "name") &&
    boundedText 1 128 ((metadata resource).get "uid") &&
    resourceVersionFormat ((metadata resource).get "resourceVersion") &&
    plainObject (labels resource) && plainObject (annotations resource) &&
    isArray (owners resource)

/-- `owners.some(...)`. -/
def anyOwner (f : Value → Bool) (resource : Value) : Bool :=
  match owners resource with
  | .array xs => xs.toList.any f
  | _ => false

def targetOwner (p : Plan) (owner : Value) : Bool :=
  is (owner.get "apiVersion") "plugins.opensphere.io/v1alpha1" &&
    is (owner.get "kind") "UIPluginPackage" && is (owner.get "name") p.name

/-- `x === b`. -/
def isBoolean (x : Value) (b : Bool) : Bool :=
  match x with
  | .boolean b' => b' == b
  | _ => false

/-- The owner is the package of the extension as it is, and controls the resource. -/
def exactOwner (p : Plan) (owner : Value) : Bool :=
  targetOwner p owner && is (owner.get "uid") p.uid && isBoolean (owner.get "controller") true &&
    isBoolean (owner.get "blockOwnerDeletion") false

def nameOf (resource : Value) : String :=
  match (metadata resource).get "name" with
  | .string t => t
  | _ => ""

/-- `kind === 'Service' && name === plan.contract.name`. -/
def stableService (p : Plan) (c : Collection) (resource : Value) : Bool :=
  c.kind == "Service" && nameOf resource == p.name

def claimsTarget (p : Plan) (c : Collection) (resource : Value) : Bool :=
  stableService p c resource || is ((labels resource).get "opensphere.io/extension-id") p.name ||
    anyOwner (targetOwner p) resource

/-- What the labels and annotations of a resource say of its revision. -/
structure Evidence where
  revision : String
  imageDigest : String
  manifestSha256 : String
deriving DecidableEq

def evidenceOf (resource : Value) : Except Fault Evidence := do
  let revision ← textOf ((labels resource).get "opensphere.io/extension-revision")
  let imageDigest ← textOf ((annotations resource).get "opensphere.io/extension-image-digest")
  let manifestSha256 ← textOf ((annotations resource).get "opensphere.io/extension-manifest-sha256")
  return ⟨revision, imageDigest, manifestSha256⟩

def expectedName (p : Plan) (c : Collection) (resource : Value) (revision : String) : String :=
  if stableService p c resource then p.name
  else if c.kind == "ServiceAccount" then
    revisionName ("uip-" ++ p.name) ((chars revision).take 12)
  else revisionName p.name (chars revision)

def owned (p : Plan) (resource : Value) : Bool :=
  is ((labels resource).get "app.kubernetes.io/managed-by") "opensphere-extension-controller" &&
    is ((labels resource).get "opensphere.io/extension-id") p.name &&
    anyOwner (exactOwner p) resource

/-- A resource that claims the extension is as the controller made it. -/
def proper (h : Hash) (p : Plan) (c : Collection) (resource : Value) (e : Evidence) : Bool :=
  revisionFormat e.revision &&
    e.revision == (if digestFormat e.imageDigest && manifestFormat e.manifestSha256 then
      String.ofList (releaseToken h p.name e.imageDigest e.manifestSha256) else "") &&
    nameOf resource == expectedName p c resource e.revision && owned p resource &&
    digestFormat e.imageDigest && manifestFormat e.manifestSha256 &&
    (e.revision != p.revision h ||
      (e.imageDigest == p.imageDigest && e.manifestSha256 == p.manifestSha256))

/-! ## The scan -/

structure Candidate where
  apiPath : String
  apiVersion : String
  kind : String
  name : String
  uid : Value
  resourceVersion : Value
  evidence : Evidence

structure Inventory where
  basePath : String
  kind : String
  /-- The resources, where they are an array. -/
  items : Option (List Value)

/-- What `planInactiveExtensionRevisionCleanup` is given beside the plan. -/
structure Request where
  inventories : List Inventory
  /-- What is retained, where it is not `null`. -/
  retainRevision : Option String
  maximumDeletes : Int := 8

structure Scan where
  collections : List String
  resources : List String
  candidates : List Candidate
  revisions : List String
  observed : Nat

/-- `basePath + '/' + name`. -/
def coordinate (c : Collection) (resource : Value) : String :=
  c.basePath ++ "/" ++ nameOf resource

def candidateOf (c : Collection) (resource : Value) (e : Evidence) : Candidate where
  apiPath := coordinate c resource
  apiVersion := c.apiVersion
  kind := c.kind
  name := nameOf resource
  uid := (metadata resource).get "uid"
  resourceVersion := (metadata resource).get "resourceVersion"
  evidence := e

/-- `!stableService && (retainRevision == null || revision !== retainRevision)`. -/
def inactive (p : Plan) (q : Request) (c : Collection) (resource : Value) (e : Evidence) : Bool :=
  !stableService p c resource && q.retainRevision.all fun t => e.revision != t

/-- `set.add(x)`. -/
def add (xs : List String) (x : String) : List String := if x ∈ xs then xs else xs ++ [x]

def Scan.take (p : Plan) (q : Request) (c : Collection) (s : Scan) (resource : Value)
    (e : Evidence) : Except Fault Scan :=
  let s := { s with resources := s.resources ++ [coordinate c resource] }
  if inactive p q c resource e then
    let s := { s with
      revisions := add s.revisions e.revision
      candidates := s.candidates ++ [candidateOf c resource e] }
    if 2 < s.revisions.length then
      violation "Extension revision cleanup plan exceeds its revision bound"
    else if q.maximumDeletes < s.candidates.length then
      violation "Extension revision cleanup plan exceeds its deletion bound"
    else .ok s
  else .ok s

def Scan.claim (h : Hash) (p : Plan) (q : Request) (c : Collection) (s : Scan) (resource : Value) :
    Except Fault Scan :=
  match evidenceOf resource with
  | .error f => .error f
  | .ok e =>
      if proper h p c resource e = true ∧ coordinate c resource ∉ s.resources then
        s.take p q c resource e
      else
        .error ⟨"Extension revision inventory contains an unowned or malformed resource",
          some "ResourceOwnershipMismatch"⟩

def Scan.item (h : Hash) (p : Plan) (q : Request) (c : Collection) (s : Scan) (resource : Value) :
    Except Fault Scan :=
  let s := { s with observed := s.observed + 1 }
  if 2048 < s.observed then violation "Extension revision inventory is too large"
  else if authoritative p c resource then
    if claimsTarget p c resource then s.claim h p q c resource else .ok s
  else violation "Extension revision inventory contains malformed Kubernetes authority"

def Scan.inventory (h : Hash) (p : Plan) (q : Request) (s : Scan) (inventory : Inventory) :
    Except Fault Scan :=
  match p.allowed inventory.basePath, inventory.items with
  | some c, some items =>
      if inventory.basePath ∈ s.collections ∨ c.kind ≠ inventory.kind then
        violation "Extension revision inventory is outside the target allowlist"
      else
        items.foldlM (Scan.item h p q c)
          { s with collections := s.collections ++ [inventory.basePath] }
  | _, _ => violation "Extension revision inventory is outside the target allowlist"

def planInactiveExtensionRevisionCleanup (h : Hash) (collation : Collation) (p : Plan)
    (q : Request) : Except Fault (List Candidate) :=
  if q.maximumDeletes < 1 ∨ 8 < q.maximumDeletes ∨
      q.retainRevision.any (fun t => !revisionFormat t) = true then
    .error ⟨"Extension revision cleanup planning input is invalid", none⟩
  else if q.inventories.length ≠ p.resources.length then
    violation "Extension revision inventory is incomplete"
  else do
    let s ← q.inventories.foldlM (Scan.inventory h p q) ⟨[], [], [], [], 0⟩
    return s.candidates.mergeSort fun a b => decide (collation.compare a.apiPath b.apiPath ≤ 0)

end Extension
