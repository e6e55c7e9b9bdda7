import Mathlib.Data.List.Sort
import Mathlib.Data.Prod.Lex
import Mathlib.Data.String.Basic
import OpenSphere.Catalog.Modules

/-!
# A snapshot of the catalog

`Build` makes a snapshot of the packages, the registrations and the descriptors of the cluster, and
of the plugins of the snapshot before.  It looks at the packages in turn.  A package gives a
candidate for an installation or the reason why not, and with a registration that is verified it
gives a plugin: the one the registration has activated, or the one of the snapshot before where the
package is ahead of its registration.
-/

open Sql
open Js (Value Values Members)

namespace Catalog

structure CliContribution where
  ns : String
  manifestPath : String
  apiBase : String

structure Approval where
  actor : String
  reason : String
  time : String

structure Plugin where
  id : String
  name : String
  manifest : String
  manifestSha256 : String
  signature : String
  keyId : String
  kind : String
  hostRef : String
  hostApiVersion : String
  hostCompat : String
  contributions : Members
  telemetryDescriptor : Value
  cli : Option CliContribution
  requestedRef : String
  requestedChannel : String
  installedDigest : String
  resolvedAt : String
  artifactVersion : String
  compatibilityVersion : String
  buildAuthority : String
  sourceRevision : String
  evidenceRefs : List Value
  artifactServiceId : String
  releaseRevision : String
  retainedArtifactServiceIds : List String
  currentChannelDigest : String
  updateState : String
  channelCheckedAt : String
  channelReason : String
  approval : Approval
  icon : String
  available : Bool
  servingMode : String
  servingReason : String

structure ExtensionCandidate where
  artifactVersion : String
  id : String
  descriptorId : String
  kind : String
  displayName : String
  image : String
  digest : String
  channel : String
  sourceRevision : String
  manifestDigest : String
  compatibilityVersion : String
  buildAuthority : String
  keyId : String
  evidenceRefs : List Value
  packageResourceVersion : String
  packageGeneration : Int
  capabilities : List String

/-- `catalog.Rejected`. -/
structure Rejected where
  kind : String
  id : String
  code : String
  message : String
deriving DecidableEq

def Rejected.extension (id code message : String) : Rejected := ⟨"extension", id, code, message⟩

def hasKey {α : Type} (m : List (String × α)) (k : String) : Bool := (m.lookup k).isSome

/-- `sort.SliceStable` by a key. -/
def sortOn {α κ : Type} [LinearOrder κ] (key : α → κ) (l : List α) : List α :=
  l.insertionSort fun a b => key a ≤ key b

def sortStrings (values : List String) : List String := sortOn id values

/-! ## Registrations and packages -/

def verifiedRegistration (reg : Resource) : Bool :=
  let status fields := nestedString reg.content ("status" :: fields)
  nestedString reg.content ["spec", "desiredState"] == "Enabled" &&
  status ["phase"] == "Activated" &&
  status ["workload", "phase"] == "Ready" &&
  status ["verification", "manifest"] == "Verified" &&
  status ["verification", "signature"] == "Verified" &&
  status ["verification", "entryDigest"] == "Verified" &&
  status ["verification", "permissions"] == "Approved"

def currentDigest (reg : Resource) : String := nestedString reg.content ["status", "currentDigest"]

def currentManifest (reg : Resource) : String :=
  nestedString reg.content ["status", "currentManifestSha256"]

def packageMatchesCurrentRegistration (pkg reg : Resource) : Bool :=
  nestedString pkg.content ["spec", "image", "digest"] == currentDigest reg &&
    nestedString pkg.content ["spec", "manifest", "sha256"] == currentManifest reg

def telemetryDescriptor (pkg : Resource) : Value :=
  let observability := ["spec", "contributions", "observability"]
  if nestedBool pkg.content (observability ++ ["enabled"]) != some true then .null
  else if nestedBool pkg.content (observability ++ ["metrics"]) != some true then .null
  else
    let metricsPath := nestedString pkg.content ["spec", "runtime", "observability", "metricsPath"]
    if metricsPath = "" then .null
    else
      let interval := nestedString pkg.content ["spec", "runtime", "observability", "scrapeInterval"]
      .ofList [("consumer", .string "opensphere-console"), ("workload", .string pkg.name),
        ("namespace", .string "opensphere-console"), ("metricsPath", .string metricsPath),
        ("scrapeInterval", .string (if interval = "" then "30s" else interval)),
        ("capabilities", .array (.cons (.string "metrics") .nil))]

def contributionEnabled (x : Value) : Bool :=
  match x.get "enabled" with
  | .boolean b => b
  | _ => !x.nullish

def enabledContributions : Members → List String
  | .nil => []
  | .cons k x ms => (if contributionEnabled x then [k] else []) ++ enabledContributions ms

def extensionCapabilitiesFromMap (contributions : Members) : List String :=
  sortStrings (enabledContributions contributions)

def localEdgeEvidenceRefs (image : String) : List String :=
  ["oci:" ++ image ++ "#p256-module-signature", "oci:" ++ image ++ "#local-edge-build-metadata"]

def texts : List Value → Option (List String)
  | [] => some []
  | .string s :: xs => (texts xs).map (s :: ·)
  | _ :: _ => none

def hasExactLocalEdgeEvidence (values : List Value) (image : String) : Bool :=
  match texts values with
  | some ts => ts.length == (localEdgeEvidenceRefs image).length && decide ts.Nodup &&
      (localEdgeEvidenceRefs image).all ts.contains
  | none => false

def official (pkg : Resource) : Bool :=
  let profile := nestedString pkg.content ["spec", "permissionProfile"]
  pkg.name == "cluster-manager" ||
    nestedString pkg.content ["spec", "trust", "keyId"] == "opensphere-module-local-v1" ||
    profile == "cluster-read" || profile == "cluster-infrastructure-manager-v1"

/-- A reason for which a package or a plugin is refused: whether it applies, and what is reported. -/
structure Check where
  applies : Bool
  code : String
  message : String

def refusal (checks : List Check) : Option Check := checks.find? Check.applies

def packageImage (pkg : Resource) : String :=
  nestedString pkg.content ["spec", "image", "repository"] ++ "@" ++
    nestedString pkg.content ["spec", "image", "digest"]

/-- The checks of `installableExtensionFromPackage`, in turn. -/
def installChecks (L : Library) (now : Int) (pkg : Resource) (trustedKeys : List (String × String)) :
    List Check :=
  let spec fields := nestedString pkg.content ("spec" :: fields)
  let canonical := canonicalExtensionRepository (spec ["kind"]) pkg.name
  let repository := spec ["image", "repository"]
  let digest := spec ["image", "digest"]
  let keyId := spec ["trust", "keyId"]
  let evidenceRefs := nestedSlice pkg.content ["spec", "resolution", "evidenceRefs"]
  [⟨official pkg && (verifyOfficialModule L pkg trustedKeys now).isNone, "ModuleReleaseInvalid",
      "official module release is unverified, expired or unavailable"⟩,
    ⟨!extensionId pkg.name || canonical == "" || repository != canonical, "ExecutionIdentityInvalid",
      "installable package lacks its canonical OpenSphere repository identity"⟩,
    ⟨!digestFormat digest || spec ["resolution", "resolvedDigest"] != digest ||
        requestedRepository (spec ["resolution", "requestedRef"]) != repository,
      "ExecutionIdentityInvalid", "installable package lacks a consistent exact-digest resolution"⟩,
    ⟨spec ["resolution", "requestedChannel"] != "edge", "ChannelUnsupported",
      "installable package is not in the local edge catalog"⟩,
    ⟨!manifestFormat (spec ["manifest", "sha256"]) ||
        !sourceRevisionFormat (spec ["resolution", "revision"]) ||
        !compatibilityVersionFormat (spec ["resolution", "compatibilityVersion"]),
      "SupplyChainIdentityInvalid",
      "installable package lacks manifest, source, or compatibility identity"⟩,
    ⟨keyId == "" || spec ["resolution", "signatureIdentity"] != keyId, "SignatureIdentityInvalid",
      "installable package signature identity does not match its trust declaration"⟩,
    ⟨!hasKey trustedKeys keyId, "UnknownTrustKey",
      "installable package signing key is not trusted"⟩,
    ⟨spec ["resolution", "buildAuthority"] != "localhost", "EdgeBuildAuthorityInvalid",
      "local edge package was not produced by the localhost build authority"⟩,
    ⟨!hasExactLocalEdgeEvidence evidenceRefs (packageImage pkg), "LocalEdgeEvidenceInvalid",
      "local edge evidence is not bound to the exact image and local edge policy"⟩,
    ⟨pkg.resourceVersion == "" || decide (pkg.generation < 1), "PackageVersionMissing",
      "installable package lacks Kubernetes resource version evidence"⟩]

def candidateOf (pkg : Resource) : ExtensionCandidate :=
  let spec fields := nestedString pkg.content ("spec" :: fields)
  { artifactVersion := spec ["resolution", "artifactVersion"]
    id := pkg.name
    descriptorId := "extension." ++ pkg.name
    kind := spec ["kind"]
    displayName := spec ["displayName"]
    image := packageImage pkg
    digest := spec ["image", "digest"]
    channel := spec ["resolution", "requestedChannel"]
    sourceRevision := spec ["resolution", "revision"]
    manifestDigest := "sha256:" ++ spec ["manifest", "sha256"]
    compatibilityVersion := spec ["resolution", "compatibilityVersion"]
    buildAuthority := spec ["resolution", "buildAuthority"]
    keyId := spec ["trust", "keyId"]
    evidenceRefs := nestedSlice pkg.content ["spec", "resolution", "evidenceRefs"]
    packageResourceVersion := pkg.resourceVersion
    packageGeneration := pkg.generation
    capabilities := extensionCapabilitiesFromMap (nestedMap pkg.content ["spec", "contributions"]) }

/-- `installableExtensionFromPackage(pkg, trustedKeys)` at an instant. -/
def installableExtensionFromPackage (L : Library) (now : Int) (pkg : Resource)
    (trustedKeys : List (String × String)) : Except Rejected ExtensionCandidate :=
  match refusal (installChecks L now pkg trustedKeys) with
  | some check => .error (.extension ("extension." ++ pkg.name) check.code check.message)
  | none => .ok (candidateOf pkg)

/-! ## Plugins -/

def exactExtensionImage (plugin : Plugin) : String :=
  let repository := requestedRepository plugin.requestedRef
  if repository = "" || repository ≠ canonicalExtensionRepository plugin.kind plugin.id ||
      !digestFormat plugin.installedDigest then ""
  else repository ++ "@" ++ plugin.installedDigest

def preference (nav : Members) (k : String) : Option String :=
  match nav.get k with
  | .string s => some s
  | _ => none

/-- `nav["labelOverride"]`, where it is a label. -/
def labelOverride (nav : Members) : Option String :=
  (preference nav "labelOverride").filter fun label => trimSpace label ≠ ""

/-- The Services of releases before the current one, as the registration knows them. -/
def retainedServices (L : Library) (id artifactServiceId : String) (reg : Resource) : List String :=
  let previousDigest := nestedString reg.content ["status", "previousDigest"]
  let previousManifest := nestedString reg.content ["status", "previousManifestSha256"]
  if digestFormat previousDigest && manifestFormat previousManifest then
    let previousService := releaseServiceID L.toHash id previousDigest previousManifest
    if previousService ≠ artifactServiceId then [previousService] else []
  else []

def cliContribution (pkg : Resource) : Option CliContribution :=
  let spec fields := nestedString pkg.content ("spec" :: fields)
  if nestedBool pkg.content ["spec", "contributions", "cli", "enabled"] = some true then
    let ns := spec ["cli", "namespace"]
    let manifestPath := spec ["cli", "manifestPath"]
    some {
      ns := if ns = "" then spec ["contributions", "cli", "namespace"] else ns
      manifestPath :=
        if manifestPath = "" then spec ["contributions", "cli", "manifestPath"] else manifestPath
      apiBase := spec ["contributions", "api", "basePath"] }
  else none

/-- The plugin that `pluginFrom` makes of a package and its registration, before it looks at it. -/
def activatedPlugin (pkg reg : Resource) (nav : Members) : Plugin :=
  let spec fields := nestedString pkg.content ("spec" :: fields)
  let status fields := nestedString reg.content ("status" :: fields)
  let signatureName := pathBase (spec ["manifest", "signaturePath"])
  let signatureName :=
    if signatureName = "." || signatureName = "" then "ui-shell.manifest.json.sig" else signatureName
  let servingPhase := status ["serving", "phase"]
  { id := pkg.name
    name := (labelOverride nav).getD (spec ["displayName"])
    manifest := status ["manifestUrl"]
    manifestSha256 := currentManifest reg
    signature := trimSlash (pathDir (status ["manifestUrl"])) ++ "/" ++ signatureName
    keyId := spec ["trust", "keyId"]
    kind := spec ["kind"]
    hostRef := spec ["hostRef"]
    hostApiVersion := spec ["hostApiVersion"]
    hostCompat := spec ["hostCompat"]
    contributions := nestedMap pkg.content ["spec", "contributions"]
    telemetryDescriptor := telemetryDescriptor pkg
    cli := cliContribution pkg
    requestedRef := status ["currentRequestedRef"]
    requestedChannel := status ["currentRequestedChannel"]
    installedDigest := currentDigest reg
    resolvedAt := status ["currentResolvedAt"]
    artifactVersion := status ["currentArtifactVersion"]
    compatibilityVersion := status ["currentCompatibilityVersion"]
    buildAuthority := status ["currentBuildAuthority"]
    sourceRevision := status ["currentRevision"]
    evidenceRefs := nestedSlice reg.content ["status", "currentEvidenceRefs"]
    artifactServiceId := status ["serving", "artifactServiceId"]
    releaseRevision := status ["serving", "revision"]
    retainedArtifactServiceIds := []
    currentChannelDigest := status ["currentChannelDigest"]
    updateState := status ["channelState"]
    channelCheckedAt := status ["channelCheckedAt"]
    channelReason := status ["channelReason"]
    approval := {
      actor := nestedString reg.content ["spec", "approval", "requestedBy"]
      reason := nestedString reg.content ["spec", "approval", "reason"]
      time := reg.creationTimestamp }
    icon := (preference nav "icon").getD (spec ["nav", "icon"])
    available := true
    servingMode := if servingPhase = "LastKnownGood" then servingPhase else ""
    servingReason := if servingPhase = "LastKnownGood" then status ["serving", "reason"] else "" }

/-- The checks of `pluginFrom`, in turn. -/
def pluginChecks (pkg : Resource) (plugin : Plugin) : List Check :=
  [⟨plugin.keyId == "opensphere-module-local-v1" && (pkg.name != "cluster-manager" ||
        nestedString pkg.content ["spec", "image", "repository"] !=
          "ghcr.io/opensphere-platform/opensphere-shell-cluster-manager"),
      "KeyScopeViolation", "module key is restricted to Cluster Manager"⟩,
    ⟨!digestFormat plugin.installedDigest, "InvalidDigest",
      "verified exact image digest is missing"⟩,
    ⟨!manifestFormat plugin.manifestSha256, "InvalidManifestDigest",
      "verified manifest digest is missing"⟩,
    ⟨plugin.keyId == "", "MissingTrustKey", "signature key identity is missing"⟩,
    ⟨exactExtensionImage plugin == "", "ExecutionIdentityInvalid",
      "verified extension lacks its canonical exact-digest execution identity"⟩,
    ⟨!sourceRevisionFormat plugin.sourceRevision, "SourceRevisionInvalid",
      "verified extension lacks a full governed source revision"⟩,
    ⟨!compatibilityVersionFormat plugin.compatibilityVersion, "CompatibilityVersionInvalid",
      "verified extension lacks a plain semantic compatibility version"⟩,
    ⟨decide (plugin.evidenceRefs.length < 2), "SupplyChainEvidenceMissing",
      "verified extension lacks provenance and SBOM evidence references"⟩]

/-- The Services that are retained for a plugin, after a plugin of the snapshot before. -/
def retainedAfter (L : Library) (prior : Option Plugin) (plugin : Plugin) (reg : Resource) :
    List String :=
  match prior.filter fun p =>
      p.artifactServiceId != "" && p.artifactServiceId != plugin.artifactServiceId with
  | some p => [p.artifactServiceId]
  | none => retainedServices L plugin.id plugin.artifactServiceId reg

def pluginFrom (L : Library) (pkg reg : Resource) (nav : Members) (prior : Option Plugin) :
    Except Rejected Plugin :=
  let plugin := activatedPlugin pkg reg nav
  match refusal (pluginChecks pkg plugin) with
  | some check => .error (.extension pkg.name check.code check.message)
  | none => .ok { plugin with retainedArtifactServiceIds := retainedAfter L prior plugin reg }

/-! ## The loop over the packages -/

structure ReleaseComponent where
  artifactVersion : String
  image : String
  sourceRevision : String

/-- What `Build` is given. -/
structure Input where
  packages : List Resource
  registrations : List Resource
  descriptors : List Resource
  /-- `ReleaseLock.Channel`. -/
  channel : String
  /-- `ReleaseLock.Components`, in the order of an iteration. -/
  components : List (String × ReleaseComponent)
  releaseLockResourceVersion : String
  trustedKeys : List (String × String)
  navigation : List (String × Members)
  previousPlugins : List Plugin
  sources : Value
  /-- As `UTC().Format(time.RFC3339Nano)` writes it. -/
  observedAt : String

/-- `regs[id]`. -/
def Input.registration (input : Input) (id : String) : Option Resource :=
  input.registrations.reverse.find? fun reg => reg.name = id

/-- `previous[id]`. -/
def Input.previous (input : Input) (id : String) : Option Plugin :=
  input.previousPlugins.reverse.find? fun plugin => plugin.id = id

/-- `input.Navigation[id]`. -/
def Input.preferences (input : Input) (id : String) : Members := (input.navigation.lookup id).getD .nil

def Plugin.shown (prior : Plugin) (nav : Members) : Plugin :=
  { prior with name := (labelOverride nav).getD prior.name, icon := (preference nav "icon").getD prior.icon }

/-- The plugin of the snapshot before is the release that the registration has activated. -/
def Plugin.activated (prior : Plugin) (reg : Resource) : Bool :=
  prior.installedDigest == currentDigest reg && prior.manifestSha256 == currentManifest reg

/-- What the loop does with a package and its registration: the plugin it publishes, and what it
reports. -/
def publish (L : Library) (input : Input) (pkg : Resource) : Option Plugin × Option Rejected :=
  let id := pkg.name
  match (input.registration id).filter verifiedRegistration with
  | none => (none, none)
  | some reg =>
    if !packageMatchesCurrentRegistration pkg reg then
      match (input.previous id).filter (·.activated reg) with
      | some prior => (some (prior.shown (input.preferences id)),
          some (.extension id "ReleaseCoordinatesPending"
            "target package is not the activated release; last-known-good remains published"))
      | none => (none, some (.extension id "ReleaseCoordinatesMismatch"
          "package and activated registration coordinates differ"))
    else
      match pluginFrom L pkg reg (input.preferences id) (input.previous id) with
      | .error reason => (none, some reason)
      | .ok plugin =>
        if hasKey input.trustedKeys plugin.keyId then (some plugin, none)
        else (none, some (.extension id "UnknownTrustKey" "signature key is not trusted"))

structure Draft where
  plugins : List Plugin
  candidates : List ExtensionCandidate
  rejected : List Rejected
  candidateRejections : List Rejected
  seen : List String

def failures {ε α : Type} : List (Except ε α) → List ε
  | [] => []
  | .error e :: xs => e :: failures xs
  | .ok _ :: xs => failures xs

def successes {ε α : Type} : List (Except ε α) → List α
  | [] => []
  | .error _ :: xs => successes xs
  | .ok a :: xs => a :: successes xs

def Draft.visit (L : Library) (now : String → Int) (input : Input) (d : Draft) (pkg : Resource) :
    Draft :=
  if d.seen.contains pkg.name then
    let rejection := Rejected.extension ("extension." ++ pkg.name) "DuplicateID" "duplicate extension id"
    { d with rejected := d.rejected ++ [rejection],
             candidateRejections := d.candidateRejections ++ [rejection] }
  else
    let offered := installableExtensionFromPackage L (now pkg.name) pkg input.trustedKeys
    let published := publish L input pkg
    { plugins := d.plugins ++ published.1.toList
      candidates := d.candidates ++ successes [offered]
      rejected := d.rejected ++ (failures [offered] ++ published.2.toList)
      candidateRejections := d.candidateRejections ++ failures [offered]
      seen := pkg.name :: d.seen }

def draft (L : Library) (now : String → Int) (input : Input) : Draft :=
  input.packages.foldl (Draft.visit L now input) ⟨[], [], [], [], []⟩

end Catalog
