import OpenSphere.Catalog.Snapshot

/-!
# What the Registry answers and its client accepts

`Resolve` answers a request for a candidate from the snapshot.  The client reads a snapshot or an
answer as JSON and refuses the whole document at the first deviation.
-/

open Sql
open Js (Value Values Members)

namespace Catalog

/-! ## Answers -/

structure ResolveRequest where
  kind : String
  id : String
  architecture : String
  channel : String
  revision : String

structure ResolveResponse where
  result : String
  revision : String
  candidate : Option Value
  blockerCode : String
  message : String

def ResolveResponse.blocked (result revision blockerCode message : String) : ResolveResponse :=
  ⟨result, revision, none, blockerCode, message⟩

def ExtensionCandidate.answer (c : ExtensionCandidate) (revision : String) : Value :=
  .ofList [("buildAuthority", .string c.buildAuthority), ("catalogRevision", .string revision),
    ("channel", .string c.channel), ("compatibilityVersion", .string c.compatibilityVersion),
    ("descriptorId", .string c.descriptorId), ("descriptorRevision", .string revision),
    ("digest", .string c.digest),
    ("evidenceRefs", (Value.array (.ofList c.evidenceRefs)).canonical),
    ("executionRevision", .string c.image), ("id", .string c.id), ("image", .string c.image),
    ("keyId", .string c.keyId), ("kind", .string "extension"),
    ("manifestDigest", .string c.manifestDigest), ("packageGeneration", integer c.packageGeneration),
    ("packageResourceVersion", .string c.packageResourceVersion),
    ("sourceRevision", .string c.sourceRevision),
    ("verification", .ofList [("catalog", .string "Verified"), ("manifest", .string "Verified"),
      ("permissions", .string "Approved"), ("provenance", .string "LocalEdgeSigned"),
      ("sbom", .string "NotRequiredLocalEdge"), ("signature", .string "Verified")])]

def Descriptor.answer (d : Descriptor) (revision : String) : Value :=
  .ofList [("catalogRevision", .string revision), ("descriptorId", .string d.id),
    ("digest", .string d.imageDigest), ("kind", .string d.cls.text)]

/-- What `Resolve` finds in a snapshot. -/
def Response.candidate (r : Response) (req : ResolveRequest) : Option Value :=
  if req.kind = "extension" then
    (r.installableExtensions.find? fun c => c.id = req.id || c.descriptorId = req.id).map
      (·.answer r.revision)
  else if req.kind = "installableModule" then
    (r.inventory.descriptors.find? fun d =>
      decide (d.cls = .installableModule) && decide (d.id = req.id) && d.eligible).map (·.answer r.revision)
  else none

/-- `s.Resolve(req)` at an instant. -/
def Store.resolve (s : Store) (now : Int) (req : ResolveRequest) : ResolveResponse :=
  match s.snapshot with
  | none => .blocked "Unavailable" "" "RegistryUnavailable" "Registry snapshot is unavailable"
  | some snap =>
    if s.stale now then
      .blocked "Unavailable" snap.revision "RegistryStale" "Registry sources are stale"
    else if req.revision ≠ snap.revision then
      .blocked "StaleRevision" snap.revision "CatalogRevisionChanged"
        "Catalog revision changed; create a new plan"
    else if req.architecture ≠ "" ∧ req.architecture ≠ "linux/amd64" then
      .blocked "Ineligible" snap.revision "ArchitectureUnsupported"
        "Only linux/amd64 is published in the local edge catalog"
    else if req.channel ≠ "" ∧ req.channel ≠ "edge" then
      .blocked "Ineligible" snap.revision "ChannelUnsupported"
        "Requested channel is not published in this catalog"
    else match snap.candidate req with
      | some candidate => ⟨"Eligible", snap.revision, some candidate, "", ""⟩
      | none => .blocked "Ineligible" snap.revision "CandidateNotFound"
          "Requested catalog candidate does not exist"

def ResolveResponse.json (r : ResolveResponse) : Value :=
  .ofList ([("result", .string r.result), ("revision", .string r.revision)] ++
    (r.candidate.toList.map fun c => ("candidate", c)) ++
    omitEmpty "blockerCode" r.blockerCode ++ omitEmpty "message" r.message)

def catalogSchema : String := "opensphere.registry-catalog/v1"

/-- The snapshot as `Current` gives it, with the fields that are the same in every one. -/
def Response.json (r : Response) (stale : Bool) : Value :=
  .ofList [("version", integer 3), ("trustedKeys", keysJson r.trustedKeys),
    ("capabilities", .array .nil), ("plugins", .array (.ofList (r.plugins.map Plugin.json))),
    ("installableExtensions", .array (.ofList (r.installableExtensions.map ExtensionCandidate.json))),
    ("templates", .array .nil), ("schema", .string catalogSchema), ("revision", .string r.revision),
    ("observedAt", .string r.observedAt), ("stale", .boolean stale), ("sources", r.sources),
    ("extensions", .ofList [("count", integer r.plugins.length),
      ("publishedIds", textList (r.plugins.map Plugin.id))]),
    ("catalog", projectionJson r.objects), ("inventory", r.inventory.json),
    ("rejected", .array (.ofList (r.rejected.map Rejected.json)))]

/-! ## The client -/

/-- The message of a fault with the code `AuthorityContractViolation`. -/
abbrev Violation := String

/-- Nothing, unless a condition fails. -/
def require (c : Bool) (message : String) : Except Violation Unit := if c then .ok () else .error message

/-- `x === s`. -/
def isText (x : Value) (s : String) : Bool :=
  match x with
  | .string t => t == s
  | _ => false

def tests (r : Pattern) (x : Value) : Bool := x.toText.any (Js.test r)

/-- `Number.isSafeInteger(x)`, with the value.  What the Registry sends are integers. -/
def safeInteger (x : Value) : Option Int :=
  match x with
  | .number t => castWithin (-Js.maxSafeInteger) Js.maxSafeInteger t
  | _ => none

/-- `[\u0000-\u001f\u007f]`. -/
def control (c : Char) : Bool := decide (c.toNat ≤ 0x1F) || c.toNat == 0x7F

/-- `CATALOG_REVISION`. -/
def revisionPattern : Pattern := .seq [.text "sha256:", .times hexLower 64]

def imagePattern : Pattern :=
  .seq [.text "ghcr.io/opensphere-platform/", .times alphanumeric 1,
    .repeated (orOneOf alphanumeric ['.', '_', '-']) 0 none, .text "@sha256:", .times hexLower 64]

def semverPattern : Pattern :=
  .seq [.repeated digit 1 none, .text ".", .repeated digit 1 none, .text ".", .repeated digit 1 none]

/-- `EVIDENCE_REF`. -/
def evidencePattern : Pattern := .repeated (fun c => !control c) 3 (some 512)

def descriptorIdPattern : Pattern :=
  .seq [.text "extension.", .times alphanumeric 1, .repeated labelChar 0 (some 62)]

def exactObject (value : Value) (fields : List String) (label : String) : Except Violation Unit :=
  match value with
  | .object ms =>
    let unknown := ms.keys.filter fun k => !(fields.contains k)
    require unknown.isEmpty (label ++ " contains unknown fields: " ++ String.intercalate ", " unknown)
  | _ => .error (label ++ " must be an object")

def lengthWithin (x : Value) (lo hi : Nat) : Bool :=
  match x with
  | .string s => decide (lo ≤ Js.length s ∧ Js.length s ≤ hi)
  | _ => false

/-- The part of an image after the last `@`. -/
def afterAt (image : String) : String :=
  String.ofList ((chars image).drop (lastIndex '@' (chars image) + 1).toNat)

def evidenceExpected (refs : Value) (image : String) : Bool :=
  match refs with
  | .array xs =>
    match texts xs.toList with
    | some ts => ts.length == 2 &&
        ts.all (fun t => Js.test evidencePattern t && (localEdgeEvidenceRefs image).contains t) &&
        ts.dedup.length == 2
    | none => false
  | _ => false

def validateEligible (document : Value) (descriptorId catalogRevision : String) :
    Except Violation Value := do
  exactObject document ["result", "revision", "candidate"] "Registry resolution"
  require (isText (document.get "result") "Eligible" && isText (document.get "revision") catalogRevision)
    "Registry returned an inconsistent eligible resolution"
  let candidate := document.get "candidate"
  exactObject candidate ["kind", "descriptorId", "id", "image", "digest", "channel", "catalogRevision",
    "descriptorRevision", "executionRevision", "sourceRevision", "manifestDigest",
    "compatibilityVersion", "buildAuthority", "keyId", "evidenceRefs", "packageResourceVersion",
    "packageGeneration", "verification"] "Registry candidate"
  let expectedId := String.ofList ((chars descriptorId).drop (chars "extension.").length)
  require (isText (candidate.get "kind") "extension" &&
    isText (candidate.get "descriptorId") descriptorId && isText (candidate.get "id") expectedId)
    "Registry returned a different extension identity"
  let image := match candidate.get "image" with
    | .string s => s
    | _ => ""
  require (tests imagePattern (candidate.get "image") && isText (candidate.get "executionRevision") image)
    "Registry candidate lacks an exact execution image"
  require (isText (candidate.get "digest") (afterAt image) &&
    isText (candidate.get "catalogRevision") catalogRevision &&
    isText (candidate.get "descriptorRevision") catalogRevision)
    "Registry candidate revision binding is inconsistent"
  require (isText (candidate.get "channel") "edge" &&
    isText (candidate.get "buildAuthority") "localhost" &&
    tests (.times hexLower 40) (candidate.get "sourceRevision") &&
    tests revisionPattern (candidate.get "manifestDigest") &&
    tests semverPattern (candidate.get "compatibilityVersion") &&
    lengthWithin (candidate.get "keyId") 1 256 &&
    lengthWithin (candidate.get "packageResourceVersion") 1 128 &&
    (safeInteger (candidate.get "packageGeneration")).any fun n => decide (1 ≤ n))
    "Registry candidate supply-chain identity is incomplete"
  require (evidenceExpected (candidate.get "evidenceRefs") image)
    "Registry candidate evidence references are invalid"
  let verification := candidate.get "verification"
  exactObject verification ["catalog", "manifest", "signature", "permissions", "provenance", "sbom"]
    "Registry verification"
  require (isText (verification.get "catalog") "Verified" &&
    isText (verification.get "manifest") "Verified" &&
    isText (verification.get "signature") "Verified" &&
    isText (verification.get "permissions") "Approved" &&
    isText (verification.get "provenance") "LocalEdgeSigned" &&
    isText (verification.get "sbom") "NotRequiredLocalEdge")
    "Registry candidate is not fully verified"
  return candidate

def textWithin (maximum : Nat) (s : String) : Bool :=
  decide (1 ≤ Js.length s ∧ Js.length s ≤ maximum) && !((chars s).any control)

def catalogText (value : Value) (label : String) (maximum : Nat) : Except Violation String :=
  match value with
  | .string s =>
    if textWithin maximum s then .ok s else .error ("Registry catalog " ++ label ++ " is invalid")
  | _ => .error ("Registry catalog " ++ label ++ " is invalid")

def catalogCount (value : Value) (label : String) : Except Violation Int :=
  match (safeInteger value).filter fun n => decide (0 ≤ n ∧ n ≤ 2000) with
  | some n => .ok n
  | none => .error ("Registry catalog " ++ label ++ " is invalid")

structure GapView where
  id : String
  cls : String
  code : String
  message : String

structure CoverageView where
  expected : Int
  published : Int
  rejected : Int
  missing : List GapView

structure DescriptorView where
  id : String
  cls : String
  displayName : String
  domain : String
  ownerId : String
  lifecycleApi : String
  capabilities : List String

structure CatalogView where
  revision : String
  /-- The instant that `toISOString` writes. -/
  observedAt : Int
  coverage : CoverageView
  descriptors : List DescriptorView

def elements (x : Value) (maximum : Nat) : Option (List Value) :=
  match x with
  | .array xs => if xs.toList.length ≤ maximum then some xs.toList else none
  | _ => none

def isObject : Value → Bool
  | .object _ => true
  | _ => false

/-- One gap of `validateCatalogCoverage`. -/
def validateGap (gap : Value) : Except Violation GapView := do
  require (isObject gap && ["coreService", "extension", "installableModule"].any (isText (gap.get "class")))
    "Registry catalog coverage gap is invalid"
  let cls := match gap.get "class" with
    | .string s => s
    | _ => ""
  let id ← catalogText (gap.get "id") "coverage gap id" 256
  let code ← catalogText (gap.get "code") "coverage gap code" 128
  let message ← catalogText (gap.get "message") "coverage gap message" 500
  return { id, cls, code, message }

def validateCatalogCoverage (value : Value) : Except Violation CoverageView :=
  match elements (value.get "missing") 2000 with
  | none => .error "Registry catalog coverage is invalid"
  | some gaps => do
    let expected ← catalogCount (value.get "expected") "expected coverage"
    let published ← catalogCount (value.get "published") "published coverage"
    let rejected ← catalogCount (value.get "rejected") "rejected coverage"
    require (decide (published ≤ expected ∧ (gaps.length : Int) = expected - published ∧
      rejected ≤ gaps.length)) "Registry catalog coverage counts are inconsistent"
    let missing ← gaps.mapM validateGap
    return { expected, published, rejected, missing }

/-- The `lifecycleApi` of an owner. -/
def lifecycleText (x : Value) : Except Violation String :=
  match x with
  | .string s => catalogText (.string s) "lifecycle API" 512
  | _ => .ok ""

/-- One descriptor of `validateCatalogSnapshot`. -/
def validateDescriptor (descriptor : Value) : Except Violation DescriptorView :=
  match elements (descriptor.get "capabilities") 128, isObject (descriptor.get "owner") with
  | some values, true => do
    let capabilities ← values.mapM fun capability => catalogText capability "capability" 128
    let id ← catalogText (descriptor.get "id") "descriptor id" 256
    let cls ← catalogText (descriptor.get "class") "descriptor class" 64
    let displayName ← catalogText (descriptor.get "displayName") "display name" 256
    let domain ← catalogText (descriptor.get "domain") "domain" 128
    let ownerId ← catalogText ((descriptor.get "owner").get "id") "owner id" 128
    let lifecycleApi ← lifecycleText ((descriptor.get "owner").get "lifecycleApi")
    return { id, cls, displayName, domain, ownerId, lifecycleApi, capabilities }
  | _, _ => .error "Registry catalog descriptor is invalid"

def validateCatalogSnapshot (dateParse : String → Option Int) (document : Value) :
    Except Violation CatalogView :=
  let inventory := document.get "inventory"
  let revision := ((document.get "revision").or (.string "")).toText.getD ""
  let observedAt := ((document.get "observedAt").or (.string "")).toText.getD ""
  let fresh := match document.get "stale" with
    | .boolean b => !b
    | _ => false
  match elements (inventory.get "descriptors") 2000 with
  | none => .error "Registry returned an invalid or stale catalog snapshot"
  | some values => do
    require (isText (document.get "schema") catalogSchema && Js.test revisionPattern revision && fresh)
      "Registry returned an invalid or stale catalog snapshot"
    match if Js.length observedAt ≤ 64 then dateParse observedAt else none with
    | none => .error "Registry catalog observation time is invalid"
    | some instant =>
      let coverage ← validateCatalogCoverage (inventory.get "coverage")
      let descriptors ← values.mapM validateDescriptor
      return { revision, observedAt := instant, coverage, descriptors }

end Catalog
