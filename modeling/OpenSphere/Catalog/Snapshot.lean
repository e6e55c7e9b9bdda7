import OpenSphere.Catalog.Build

/-!
# The inventory and the revision of a snapshot

The inventory lists what the release is made of, what can be installed, and what is missing and
why.  The revision is the hash of the content of the snapshot without the times at which it was
observed.
-/

open Sql
open Js (Value Values Members)

namespace Catalog

inductive Class where
  | coreService
  | extension
  | installableModule
deriving DecidableEq

def Class.text : Class → String
  | .coreService => "coreService"
  | .extension => "extension"
  | .installableModule => "installableModule"

/-- `catalog.Descriptor`. -/
structure Descriptor where
  id : String
  cls : Class
  displayName : String
  domain : String
  ownerId : String
  lifecycleApi : String
  sourceKind : String
  sourceName : String
  artifactVersion : String
  compatibilityVersion : String
  channel : String
  imageDigest : String
  capabilities : List String
  mode : String
  eligible : Bool
  observedGeneration : Int
  sourceRevision : String

/-- `catalog.CoverageGap`. -/
structure CoverageGap where
  id : String
  cls : Class
  code : String
  message : String
deriving DecidableEq

def CoverageGap.rejected (g : CoverageGap) : Rejected := ⟨g.cls.text, g.id, g.code, g.message⟩

/-- `catalog.ClassCoverage`. -/
structure ClassCoverage where
  expected : Int
  published : Int
  rejected : Int
  missing : Int

/-- `catalog.Coverage`. -/
structure Coverage where
  expected : Int
  published : Int
  rejected : Int
  missing : List CoverageGap
  byClass : Class → ClassCoverage

/-- `catalog.Inventory`. -/
structure Inventory where
  descriptors : List Descriptor
  coverage : Coverage

structure CoreServiceMetadata where
  id : String
  displayName : String
  domain : String
  ownerId : String
  lifecycleApi : String
  capabilities : List String

def coreServices : List (String × CoreServiceMetadata) :=
  [("console", ⟨"cbss.opensphere-console", "OpenSphere Console",
      "console", "cbss.console", "/api/health",
      ["main-shell", "administration"]⟩),
    ("consoleApi", ⟨"cbss.opensphere-console-api", "OpenSphere Console API",
      "control", "cbss.console-api", "/healthz",
      ["identity", "policy-gate", "durable-operation", "owner-admission"]⟩),
    ("extensionController", ⟨"cbss.opensphere-extension-controller", "OpenSphere Extension Controller",
      "extensions", "cbss.extensions", "/healthz",
      ["extension-reconcile", "signature-verification", "workload-lifecycle"]⟩),
    ("registry", ⟨"cbss.opensphere-registry", "OpenSphere Registry & Catalog Service",
      "catalog", "cbss.registry", "/api/v1/registry",
      ["discovery", "normalization", "revision", "resolve"]⟩),
    ("osaaGateway", ⟨"cbss.opensphere-osaa-gateway", "OSAA Gateway",
      "agent", "cbss.osaa", "/api/osaa/health",
      ["dialogue", "tool-routing"]⟩),
    ("osdst", ⟨"cbss.opensphere-osdst", "OpenSphere Dialogue State Tracker",
      "agent", "cbss.osdst", "/api/osdst/v1/status",
      ["dialogue-state", "typed-projection", "deterministic-rendering"]⟩),
    ("osaaGovernedAdapter", ⟨"cbss.opensphere-osaa-governed-adapter", "OSAA Governed Adapter",
      "agent", "cbss.osaa", "/api/osaa/health",
      ["governed-execution"]⟩),
    ("notificationDispatcher", ⟨"cbss.opensphere-notification-dispatcher", "Notification Dispatcher",
      "operations", "cbss.notifications", "/api/health",
      ["notification-delivery"]⟩),
    ("gitea", ⟨"cbss.opensphere-gitea", "CBSS Gitea",
      "source-control", "cbss.gitea", "/api/health",
      ["desired-state", "approval-evidence"]⟩),
    ("supabasePostgres", ⟨"cbss.opensphere-supabase-postgres", "CBSS Supabase PostgreSQL",
      "console-data", "cbss.supabase", "/api/health",
      ["console-data"]⟩),
    ("supabaseAuth", ⟨"cbss.opensphere-supabase-auth", "CBSS Supabase Auth",
      "identity", "cbss.supabase", "/api/identity/session",
      ["administrator-identity", "session"]⟩),
    ("supabaseRest", ⟨"cbss.opensphere-supabase-rest", "CBSS Supabase REST",
      "console-data", "cbss.supabase", "/api/health",
      ["console-data-api"]⟩),
    ("supabaseStorage", ⟨"cbss.opensphere-supabase-storage", "CBSS Supabase Storage",
      "console-data", "cbss.supabase", "/api/health",
      ["console-object-storage"]⟩),
    ("giteaPostgres", ⟨"cbss.opensphere-gitea-postgres", "CBSS Gitea PostgreSQL",
      "source-control", "cbss.gitea", "/api/health",
      ["gitea-data"]⟩),
    ("recovery", ⟨"cbss.opensphere-recovery", "OpenSphere Recovery",
      "recovery", "cbss.recovery", "/api/admin/recovery/status",
      ["backup", "restore", "recovery-evidence"]⟩),
    ("beszelHub", ⟨"cbss.opensphere-beszel-hub", "Beszel Hub",
      "monitoring", "cbss.monitoring", "/api/monitoring/baseline/v1/data-health",
      ["node-telemetry", "alerts"]⟩),
    ("beszelAgent", ⟨"cbss.opensphere-beszel-agent", "Beszel Agent",
      "monitoring", "cbss.monitoring", "/api/monitoring/baseline/v1/nodes",
      ["node-observation"]⟩),
    ("beszelBootstrap", ⟨"cbss.opensphere-beszel-bootstrap", "Beszel Bootstrap",
      "monitoring", "cbss.monitoring", "/api/monitoring/baseline/v1/data-health",
      ["reader-bootstrap", "agent-enrollment"]⟩)]

/-! ## Descriptors -/

def coreDescriptor (input : Input) (component : String × ReleaseComponent) :
    Except CoverageGap Descriptor :=
  match coreServices.lookup component.1 with
  | none => .error ⟨"core." ++ component.1, .coreService, "DescriptorMissing",
      "release component has no Registry metadata adapter"⟩
  | some metadata =>
    let digest := imageDigest component.2.image
    if digest = "" || component.2.sourceRevision = "" then
      .error ⟨metadata.id, .coreService,
        if digest = "" then "DigestMissing" else "ReleaseEvidenceMissing",
        "canonical release component lacks exact release evidence"⟩
    else .ok {
      id := metadata.id
      cls := .coreService
      displayName := metadata.displayName
      domain := metadata.domain
      ownerId := metadata.ownerId
      lifecycleApi := metadata.lifecycleApi
      sourceKind := "OpenSphereReleaseLock"
      sourceName := component.1
      artifactVersion := component.2.artifactVersion
      compatibilityVersion := ""
      channel := input.channel
      imageDigest := digest
      capabilities := metadata.capabilities
      mode := "built-in"
      eligible := false
      observedGeneration := parseInt input.releaseLockResourceVersion
      sourceRevision := component.2.sourceRevision }

def candidateDescriptor (c : ExtensionCandidate) : Descriptor where
  id := c.descriptorId
  cls := .extension
  displayName := c.displayName
  domain := "console-extension"
  ownerId := "opensphere-console"
  lifecycleApi := "/api/admin/extensions/registrations/" ++ c.id
  sourceKind := "UIPluginPackage"
  sourceName := c.id
  artifactVersion := c.artifactVersion
  compatibilityVersion := c.compatibilityVersion
  channel := c.channel
  imageDigest := c.digest
  capabilities := c.capabilities
  mode := "extension-controller"
  eligible := true
  observedGeneration := c.packageGeneration
  sourceRevision := c.sourceRevision

def moduleDescriptor (item : Resource) : Except CoverageGap Descriptor :=
  let digest := imageDigest (nestedString item.content ["spec", "operator", "image"])
  let mode := nestedString item.content ["spec", "catalog", "install"]
  if digest = "" then
    .error ⟨"foundation." ++ item.name, .installableModule, "DigestMissing",
      "Foundation descriptor does not identify one exact-digest installable artifact"⟩
  else .ok {
    id := "foundation." ++ item.name
    cls := .installableModule
    displayName := item.name
    domain := "foundation"
    ownerId := "pfss.foundation"
    lifecycleApi := "/api/foundation/modules/" ++ item.name
    sourceKind := "FoundationModuleDescriptor"
    sourceName := item.name
    artifactVersion := ""
    compatibilityVersion := ""
    channel := ""
    imageDigest := digest
    capabilities := sortStrings ((nestedSlice item.content ["spec", "operator", "capability"]).filterMap
      fun
        | .string s => some s
        | _ => none)
    mode := if mode = "" then "optional" else mode
    eligible := true
    observedGeneration := item.generation
    sourceRevision := item.resourceVersion }

def packageGap (r : Rejected) : CoverageGap := ⟨r.id, .extension, r.code, r.message⟩

def collision (d : Descriptor) : CoverageGap :=
  ⟨d.id, d.cls, "DuplicateIdentity", "descriptor identity collides across Registry sources"⟩

def CoverageGap.key (g : CoverageGap) : String ×ₗ String := toLex (g.id, g.code)

/-- What `SortRejected` sorts by. -/
def Rejected.key (r : Rejected) : String ×ₗ String ×ₗ String := toLex (r.kind, toLex (r.id, r.code))

/-- `buildInventory(input, candidates, candidateRejections, &rejected)`: the inventory, and what is
appended to `rejected`. -/
def buildInventory (input : Input) (candidates : List ExtensionCandidate)
    (candidateRejections : List Rejected) : Inventory × List Rejected :=
  let core := input.components.map (coreDescriptor input)
  let modules := input.descriptors.map moduleDescriptor
  let descriptors := sortOn Descriptor.id
    (successes core ++ candidates.map candidateDescriptor ++ successes modules)
  let duplicate (d : Descriptor) : Bool := 1 < descriptors.countP (·.id = d.id)
  let collisions := (descriptors.filter duplicate).map collision
  let unique := descriptors.filter fun d => !duplicate d
  let gaps := failures core ++ candidateRejections.map packageGap ++ failures modules ++ collisions
  let missing := sortOn CoverageGap.key gaps
  let expected : Class → Int
    | .coreService => input.components.length
    | .extension => input.packages.length
    | .installableModule => input.descriptors.length
  let rejectedOf (c : Class) : Int := gaps.countP (·.cls = c)
  let publishedOf (c : Class) : Int := unique.countP (·.cls = c)
  ({ descriptors := unique
     coverage := {
       expected := expected .coreService + expected .extension + expected .installableModule
       published := unique.length
       rejected := rejectedOf .coreService + rejectedOf .extension + rejectedOf .installableModule
       missing := missing
       byClass := fun c => ⟨expected c, publishedOf c, rejectedOf c, expected c - publishedOf c⟩ } },
   (failures core ++ failures modules ++ collisions).map CoverageGap.rejected)

/-! ## Objects of the catalog -/

def memberOf (k : String) (s : String) : List (String × Value) := if s = "" then [] else [(k, .string s)]

def mapOf (ms : List (String × Value)) : Value := (Value.ofList ms).canonical

def descriptorSpec (item : Resource) : Value :=
  let field k := nestedMap item.content ["spec", k]
  let read k path := nestedString (.object (field k)) path
  let list k path := nestedSlice (.object (field k)) path
  let present k (ms : List (String × Value)) : List (String × Value) :=
    match field k with
    | .nil => []
    | .cons .. => [(k, mapOf ms)]
  let chartRef := nestedMap (.object (field "operator")) ["chartRef"]
  mapOf (memberOf "model" (nestedString item.content ["spec", "model"]) ++
    present "description" [("summary", .string (read "description" ["summary"]))] ++
    present "catalog" (memberOf "authority" (read "catalog" ["authority"]) ++
      memberOf "install" (read "catalog" ["install"]) ++
      (match nestedBool (.object (field "catalog")) ["fixed"] with
        | some b => [("fixed", .boolean b)]
        | none => [])) ++
    present "operator" (memberOf "image" (read "operator" ["image"]) ++
      (match chartRef with
        | .nil => []
        | .cons .. => [("chartRef", .object chartRef)]) ++
      (match list "operator" ["capability"] with
        | [] => []
        | xs => [("capability", .array (.ofList xs))])) ++
    present "relations" [("consumed", .array (.ofList (list "relations" ["consumed"]))),
      ("consumers", .array (.ofList (list "relations" ["consumers"])))])

def catalogObjects (items : List Resource) : List (String × Value) :=
  sortOn Prod.fst (items.map fun item => (item.name, descriptorSpec item))

/-! ## JSON -/

/-- A field with `omitempty`. -/
def omitEmpty (k s : String) : List (String × Value) := memberOf k s

def integer (n : Int) : Value := .number (decimal n)

def textList (ts : List String) : Value := .array (.ofList (ts.map .string))

def CliContribution.json (c : CliContribution) : Value :=
  .ofList [("namespace", .string c.ns), ("manifestPath", .string c.manifestPath),
    ("apiBase", .string c.apiBase)]

def Plugin.json (p : Plugin) : Value :=
  .ofList ([("id", .string p.id), ("name", .string p.name), ("manifest", .string p.manifest),
    ("manifestSha256", .string p.manifestSha256), ("signature", .string p.signature),
    ("keyId", .string p.keyId), ("kind", .string p.kind), ("hostRef", .string p.hostRef),
    ("hostApiVersion", .string p.hostApiVersion), ("hostCompat", .string p.hostCompat),
    ("contributions", (Value.object p.contributions).canonical),
    ("telemetryDescriptor", p.telemetryDescriptor.canonical)] ++
    (p.cli.toList.map fun c => ("cli", c.json)) ++
    [("requestedRef", .string p.requestedRef), ("requestedChannel", .string p.requestedChannel),
    ("installedDigest", .string p.installedDigest), ("resolvedAt", .string p.resolvedAt),
    ("artifactVersion", .string p.artifactVersion),
    ("compatibilityVersion", .string p.compatibilityVersion),
    ("buildAuthority", .string p.buildAuthority), ("sourceRevision", .string p.sourceRevision),
    ("evidenceRefs", (Value.array (.ofList p.evidenceRefs)).canonical),
    ("artifactServiceId", .string p.artifactServiceId),
    ("releaseRevision", .string p.releaseRevision),
    ("retainedArtifactServiceIds", textList p.retainedArtifactServiceIds),
    ("currentChannelDigest", .string p.currentChannelDigest),
    ("updateState", .string p.updateState), ("channelCheckedAt", .string p.channelCheckedAt),
    ("channelReason", .string p.channelReason),
    ("approval", .ofList [("actor", .string p.approval.actor), ("reason", .string p.approval.reason),
      ("time", .string p.approval.time)]),
    ("icon", .string p.icon), ("available", .boolean p.available)] ++
    omitEmpty "servingMode" p.servingMode ++ omitEmpty "servingReason" p.servingReason)

def ExtensionCandidate.json (c : ExtensionCandidate) : Value :=
  .ofList (omitEmpty "artifactVersion" c.artifactVersion ++
    [("id", .string c.id), ("descriptorId", .string c.descriptorId), ("kind", .string c.kind),
    ("displayName", .string c.displayName), ("image", .string c.image),
    ("digest", .string c.digest), ("channel", .string c.channel),
    ("sourceRevision", .string c.sourceRevision), ("manifestDigest", .string c.manifestDigest),
    ("compatibilityVersion", .string c.compatibilityVersion),
    ("buildAuthority", .string c.buildAuthority), ("keyId", .string c.keyId),
    ("evidenceRefs", (Value.array (.ofList c.evidenceRefs)).canonical),
    ("packageResourceVersion", .string c.packageResourceVersion),
    ("packageGeneration", integer c.packageGeneration), ("capabilities", textList c.capabilities)])

def Rejected.json (r : Rejected) : Value :=
  .ofList [("kind", .string r.kind), ("id", .string r.id), ("code", .string r.code),
    ("message", .string r.message)]

def Descriptor.json (d : Descriptor) : Value :=
  .ofList [("id", .string d.id), ("class", .string d.cls.text),
    ("displayName", .string d.displayName), ("domain", .string d.domain),
    ("owner", .ofList (("id", .string d.ownerId) :: omitEmpty "lifecycleApi" d.lifecycleApi)),
    ("source", .ofList [("kind", .string d.sourceKind), ("name", .string d.sourceName)]),
    ("release", .ofList (omitEmpty "artifactVersion" d.artifactVersion ++
      omitEmpty "compatibilityVersion" d.compatibilityVersion ++ omitEmpty "channel" d.channel ++
      omitEmpty "imageDigest" d.imageDigest)),
    ("capabilities", textList d.capabilities),
    ("installation", .ofList [("mode", .string d.mode), ("eligible", .boolean d.eligible)]),
    ("evidence", .ofList [("observedGeneration", integer d.observedGeneration),
      ("sourceRevision", .string d.sourceRevision)])]

def CoverageGap.json (g : CoverageGap) : Value :=
  .ofList [("id", .string g.id), ("class", .string g.cls.text), ("code", .string g.code),
    ("message", .string g.message)]

def ClassCoverage.json (c : ClassCoverage) : Value :=
  .ofList [("expected", integer c.expected), ("published", integer c.published),
    ("rejected", integer c.rejected), ("missing", integer c.missing)]

def Inventory.json (i : Inventory) : Value :=
  .ofList [("descriptors", .array (.ofList (i.descriptors.map Descriptor.json))),
    ("coverage", .ofList [("expected", integer i.coverage.expected),
      ("published", integer i.coverage.published), ("rejected", integer i.coverage.rejected),
      ("missing", .array (.ofList (i.coverage.missing.map CoverageGap.json))),
      ("byClass", .ofList [("coreService", (i.coverage.byClass .coreService).json),
        ("extension", (i.coverage.byClass .extension).json),
        ("installableModule", (i.coverage.byClass .installableModule).json)])])]

/-- `catalog.Projection`. -/
def projectionJson (objects : List (String × Value)) : Value :=
  .ofList [("moduleDescriptors", .array (.ofList (objects.map fun o =>
    .ofList [("id", .string o.1), ("spec", o.2)])))]

/-- `map[string]string`. -/
def keysJson (keys : List (String × String)) : Value := mapOf (keys.map fun k => (k.1, .string k.2))

/-! ## The snapshot -/

/-- `Response`, without the fields that are the same in every one. -/
structure Response where
  trustedKeys : List (String × String)
  plugins : List Plugin
  installableExtensions : List ExtensionCandidate
  revision : String
  observedAt : String
  sources : Value
  objects : List (String × Value)
  inventory : Inventory
  rejected : List Rejected

def Plugin.unobserved (p : Plugin) : Plugin := { p with resolvedAt := "", channelCheckedAt := "" }

def Response.content (r : Response) : Value :=
  .ofList [("version", integer 3), ("trustedKeys", keysJson r.trustedKeys),
    ("plugins", match r.plugins with
      | [] => .null
      | plugins => .array (.ofList (plugins.map fun p => p.unobserved.json))),
    ("installableExtensions", .array (.ofList (r.installableExtensions.map ExtensionCandidate.json))),
    ("catalog", projectionJson r.objects), ("inventory", r.inventory.json),
    ("rejected", .array (.ofList (r.rejected.map Rejected.json)))]

def revisionOf (L : Library) (content : Value) : String :=
  "sha256:" ++ ConsoleIdentity.encodeHex (L.sha256 (marshal content))

/-- The snapshot of the sources, without its revision. -/
def unrevised (L : Library) (now : String → Int) (input : Input) : Response :=
  let d := draft L now input
  let plugins := sortOn Plugin.id d.plugins
  let candidates := sortOn ExtensionCandidate.id d.candidates
  let inventory := buildInventory input candidates d.candidateRejections
  { trustedKeys := input.trustedKeys
    plugins := plugins
    installableExtensions := candidates
    revision := ""
    observedAt := input.observedAt
    sources := input.sources
    objects := catalogObjects input.descriptors
    inventory := inventory.1
    rejected := sortOn Rejected.key (d.rejected ++ inventory.2) }

def Response.revised (L : Library) (r : Response) : Response :=
  { r with revision := revisionOf L r.content }

/-- `Build(input)`, where the package of a name is looked at at an instant of its own. -/
def build (L : Library) (now : String → Int) (input : Input) : Except String Response :=
  if input.components.isEmpty then .error "canonical release inventory is missing"
  else .ok ((unrevised L now input).revised L)

/-! ## The store -/

/-- `Store`.  Instants are nanoseconds. -/
structure Store where
  snapshot : Option Response
  lastSuccess : Option Int
  lastError : String

/-- `NewStore(dyn)`. -/
def Store.new : Store := ⟨none, none, ""⟩

def freshnessTarget : Int := 30 * 1000000000

structure Refresh where
  /-- What `LoadInput` gives, if every source answers. -/
  loaded : Option Input
  /-- When the packages are looked at. -/
  looked : String → Int
  /-- When it has succeeded. -/
  done : Int

/-- The input of a refresh, with the plugins of the snapshot before. -/
def Store.input (s : Store) (input : Input) : Input :=
  { input with previousPlugins := s.snapshot.elim [] Response.plugins }

/-- `s.Refresh(ctx)`. -/
def Store.refresh (L : Library) (s : Store) (r : Refresh) : Store :=
  match r.loaded.map fun input => build L r.looked (s.input input) with
  | some (.ok next) => ⟨some next, some r.done, ""⟩
  | _ => { s with lastError := "SourceUnavailable" }

/-- `s.Stale()` at an instant. -/
def Store.stale (s : Store) (now : Int) : Bool :=
  match s.lastSuccess with
  | none => true
  | some t => s.lastError != "" || decide (freshnessTarget < now - t)

def Store.run (L : Library) (s : Store) (rs : List Refresh) : Store := rs.foldl (Store.refresh L) s

end Catalog
