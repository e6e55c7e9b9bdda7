import OpenSphere.Catalog.Loop
import OpenSphere.Properties.Names

/-!
# Published plugins are trusted

A plugin of a snapshot is one that its registration has activated, and its key is in the trust
list.  The loop does not look at the key of a plugin that it takes over from the snapshot before, so
the second holds exactly in the runs where no plugin is taken over after its key was withdrawn.
-/

open Js (Members)

namespace Catalog

/-- The plugin of the snapshot before that is published for a package. -/
def Input.carried (input : Input) (pkg : Resource) : Option Plugin :=
  ((input.registration pkg.name).filter verifiedRegistration).bind fun reg =>
    if packageMatchesCurrentRegistration pkg reg then none
    else (input.previous pkg.name).filter (·.activated reg)

/-- Every plugin that is taken over has a key that is still trusted. -/
def Input.KeepsTrust (input : Input) : Prop :=
  ∀ pkg ∈ input.looked, ∀ prior ∈ input.carried pkg, hasKey input.trustedKeys prior.keyId = true

def Input.Activated (input : Input) (p : Plugin) : Prop :=
  ∃ reg, input.registration p.id = some reg ∧ verifiedRegistration reg = true ∧
    p.installedDigest = currentDigest reg ∧ p.manifestSha256 = currentManifest reg

/-- Every plugin of a snapshot is trusted and activated in the sources. -/
def Trusted (input : Input) (r : Response) : Prop :=
  ∀ p ∈ r.plugins, hasKey r.trustedKeys p.keyId = true ∧ input.Activated p

/-! ## One package -/

section

variable {L : Library} {input : Input} {pkg reg : Resource} {p : Plugin}

theorem pluginFrom_ok {nav : Members} {prior : Option Plugin}
    (h : pluginFrom L pkg reg nav prior = .ok p) :
    p = { activatedPlugin pkg reg nav with
      retainedArtifactServiceIds := retainedAfter L prior (activatedPlugin pkg reg nav) reg } := by
  unfold pluginFrom at h
  simp only at h
  split at h
  · cases h
  · exact (Except.ok.inj h).symm

/-- What is published for a package is new and trusted, or taken over. -/
theorem publish_cases (h : (publish L input pkg).1 = some p) :
    (input.carried pkg = none ∧ hasKey input.trustedKeys p.keyId = true ∧ p.id = pkg.name ∧
        input.Activated p) ∨
      ∃ prior, input.carried pkg = some prior ∧ p = prior.shown (input.preferences pkg.name) ∧
        p.id = pkg.name ∧ input.Activated p := by
  unfold publish at h
  simp only at h
  split at h
  · cases h
  · rename_i reg hreg
    have hlookup := Option.filter_eq_some_iff.mp hreg
    split at h
    · rename_i hahead
      split at h
      · rename_i prior hprior
        obtain ⟨hprev, hact⟩ := Option.filter_eq_some_iff.mp hprior
        have hid : prior.id = pkg.name := by
          have := List.find?_some hprev
          simpa using this
        simp only [Plugin.activated, Bool.and_eq_true, beq_iff_eq] at hact
        obtain rfl := Option.some.inj h
        refine .inr ⟨prior, ?_, rfl, hid, reg, ?_, hlookup.2, hact.1, hact.2⟩
        · simp only [Input.carried, hreg, Option.bind_some]
          rw [if_neg (by simpa using hahead)]
          exact hprior
        · rw [← hlookup.1]
          exact congrArg input.registration hid
      · cases h
    · rename_i hsame
      split at h
      · cases h
      · rename_i plugin hplugin
        have heq := pluginFrom_ok hplugin
        split at h
        · rename_i hkey
          obtain rfl := Option.some.inj h
          refine .inl ⟨?_, hkey, ?_, reg, ?_, hlookup.2, ?_, ?_⟩
          · simp only [Input.carried, hreg, Option.bind_some]
            rw [if_pos (by simpa using hsame)]
          · rw [heq]
            rfl
          · rw [heq]
            exact hlookup.1
          · rw [heq]
            rfl
          · rw [heq]
            rfl
        · cases h

theorem publish_carried {prior : Plugin} (h : input.carried pkg = some prior) :
    (publish L input pkg).1 = some (prior.shown (input.preferences pkg.name)) := by
  rw [Input.carried, Option.bind_eq_some_iff] at h
  obtain ⟨reg, hreg, h⟩ := h
  split at h
  · cases h
  · rename_i hahead
    unfold publish
    simp only [hreg]
    rw [if_pos (by simpa using hahead)]
    simp only [h]

end

/-! ## One refresh -/

section

variable {L : Library} {now : String → Int} {input : Input} {next : Response}

theorem build_ok (h : build L now input = .ok next) :
    next.trustedKeys = input.trustedKeys ∧
      ∀ p, p ∈ next.plugins ↔ ∃ pkg ∈ input.looked, (publish L input pkg).1 = some p := by
  unfold build at h
  split at h
  · cases h
  · obtain rfl := Except.ok.inj h
    refine ⟨rfl, fun p => ?_⟩
    show p ∈ sortOn Plugin.id (draft L now input).plugins ↔ _
    rw [sortOn, List.mem_insertionSort, draft_plugins, List.mem_flatMap]
    simp only [Option.mem_toList]

/-- A snapshot is trusted exactly if the plugins it takes over are. -/
theorem trusted_iff (h : build L now input = .ok next) : Trusted input next ↔ input.KeepsTrust := by
  obtain ⟨hkeys, hplugins⟩ := build_ok h
  constructor
  · intro htrusted pkg hpkg prior hprior
    have hmem := (hplugins _).mpr ⟨pkg, hpkg, publish_carried hprior⟩
    have hkey := (htrusted _ hmem).1
    rw [hkeys] at hkey
    exact hkey
  · intro hkeeps p hp
    obtain ⟨pkg, hpkg, hpublish⟩ := (hplugins p).mp hp
    rcases publish_cases hpublish with ⟨-, hkey, -, hact⟩ | ⟨prior, hcarried, rfl, -, hact⟩
    · rw [hkeys]
      exact ⟨hkey, hact⟩
    · rw [hkeys]
      exact ⟨hkeeps pkg hpkg prior hcarried, hact⟩

end

/-! ## Runs -/

def Store.Publishes (L : Library) (s : Store) (r : Refresh) (input : Input) (next : Response) : Prop :=
  r.loaded = some input ∧ build L r.looked (s.input input) = .ok next

/-- A statement about every refresh of a run that publishes a snapshot. -/
def Published (L : Library) (rs : List Refresh) (P : Input → Response → Prop) : Prop :=
  ∀ front r back input next, rs = front ++ r :: back →
    (Store.new.run L front).Publishes L r input next →
    P ((Store.new.run L front).input input) next

/-- **Published plugins are trusted.**  In a run of refreshes every plugin of every snapshot has a
key in the trust list of that snapshot and is the one that its registration has activated, with the
digests of the registration, exactly if no refresh takes over a plugin whose key is no longer in the
trust list. -/
theorem published_plugins_trusted (L : Library) (rs : List Refresh) :
    Published L rs Trusted ↔ Published L rs fun input _ => input.KeepsTrust := by
  constructor
  · intro h front r back input next heq hpub
    exact (trusted_iff hpub.2).mp (h front r back input next heq hpub)
  · intro h front r back input next heq hpub
    exact (trusted_iff hpub.2).mpr (h front r back input next heq hpub)

namespace Demo

def library : Library where
  toHash := hash
  Key := Unit
  members _ := none
  parseTime _ := none
  publicKey _ := none
  verify _ _ _ := false

def digits (n : Nat) (c : Char) : String := String.ofList (List.replicate n c)

def repository : String := "ghcr.io/opensphere-platform/opensphere-plugin-postgres"

/-- A package of the plugin `postgres`, whose image has the given digest. -/
def package (digest : String) : Resource where
  name := "postgres"
  labels := []
  annotations := []
  generation := 1
  resourceVersion := "17"
  creationTimestamp := "2026-08-24T00:00:00Z"
  content := .ofList [("spec", .ofList [("displayName", .string "PostgreSQL"),
    ("kind", .string "plugin"), ("trust", .ofList [("keyId", .string "key-1")]),
    ("image", .ofList [("repository", .string repository), ("digest", .string digest)]),
    ("manifest", .ofList [("sha256", .string (digits 64 'b'))])])]

/-- A registration of the plugin that has activated its first release, served by a Service. -/
def registration (service : String) : Resource where
  name := "postgres"
  labels := []
  annotations := []
  generation := 1
  resourceVersion := "18"
  creationTimestamp := "2026-08-24T00:00:00Z"
  content := .ofList [("spec", .ofList [("desiredState", .string "Enabled")]),
    ("status", .ofList [("phase", .string "Activated"),
      ("workload", .ofList [("phase", .string "Ready")]),
      ("verification", .ofList [("manifest", .string "Verified"), ("signature", .string "Verified"),
        ("entryDigest", .string "Verified"), ("permissions", .string "Approved")]),
      ("currentDigest", .string ("sha256:" ++ digits 64 'a')),
      ("currentManifestSha256", .string (digits 64 'b')),
      ("currentRequestedRef", .string (repository ++ ":edge")),
      ("currentRevision", .string (digits 40 'c')),
      ("currentCompatibilityVersion", .string "1.0.0"),
      ("currentEvidenceRefs", .array (.ofList [.string "oci:provenance", .string "oci:sbom"])),
      ("serving", .ofList [("artifactServiceId", .string service)])])]

def sources (pkg reg : Resource) (key : String) : Input where
  packages := [pkg]
  registrations := [reg]
  descriptors := []
  channel := "edge"
  components := [("console", ⟨"", "console", ""⟩)]
  releaseLockResourceVersion := "3"
  trustedKeys := [(key, "spki")]
  navigation := []
  previousPlugins := []
  sources := .null
  observedAt := "2026-08-24T00:00:00Z"

/-- The plugin is published, and then a new package is on its way when its key is withdrawn. -/
def withdrawal : List Refresh :=
  [⟨some (sources (package ("sha256:" ++ digits 64 'a')) (registration "") "key-1"), fun _ => 0, 0⟩,
    ⟨some (sources (package ("sha256:" ++ digits 64 'd')) (registration "") "key-2"), fun _ => 0, 1⟩]

end Demo

theorem withdrawn_key_stays : ¬ Published Demo.library Demo.withdrawal Trusted := by
  intro htrusted
  obtain ⟨next, hnext⟩ : ∃ next, build Demo.library (fun _ => 0)
      (((Store.new.run Demo.library (Demo.withdrawal.take 1)).input
        (Demo.sources (Demo.package ("sha256:" ++ Demo.digits 64 'd')) (Demo.registration "")
          "key-2"))) = .ok next := ⟨_, rfl⟩
  have hall := htrusted (Demo.withdrawal.take 1) _ [] _ next rfl ⟨rfl, hnext⟩
  have hkey : (next.plugins.all fun p => hasKey next.trustedKeys p.keyId) = false := by
    obtain rfl := Except.ok.inj hnext
    decide
  rw [List.all_eq_true.mpr fun p hp => (hall p hp).1] at hkey
  cases hkey

end Catalog
