import Mathlib.Data.List.Perm.Subperm
import OpenSphere.Catalog.Contract
import OpenSphere.Catalog.Origins
import OpenSphere.Properties.Trust

/-!
# The answers of the Registry are accepted by its client

What the client checks and the Registry does not are the texts that come from the sources as they
are: display names, the names of objects that are reported missing, capabilities of Foundation
modules, key ids and versions of packages.  So a snapshot and the answers made of it are accepted
exactly if these texts are within the limits of the client.
-/

open Sql
open Js (Value Values Members)

namespace Catalog

variable {r : Response} {c : String × ReleaseComponent} {g : CoverageGap} {pkg : Resource}
  {s : String} {n : Nat}

/-! ## The texts of the sources -/

def contributionNames : List String :=
  ["page", "navigation", "api", "cli", "manual", "search", "notification", "observability"]

/-- A package as the schema leaves it: unknown contributions are pruned. -/
structure Admitted (pkg : Resource) : Prop where
  distinct : (nestedMap pkg.content ["spec", "contributions"]).keys.Nodup
  known : ∀ k ∈ (nestedMap pkg.content ["spec", "contributions"]).keys, k ∈ contributionNames

def moduleCapabilities (item : Resource) : List String :=
  (nestedSlice item.content ["spec", "operator", "capability"]).filterMap fun
    | .string s => some s
    | _ => none

/-- The texts that the sources leave open are within the limits of the client. -/
structure Input.Limited (L : Library) (now : String → Int) (a : Input) : Prop where
  /-- An unknown component of the release is reported missing. -/
  components : ∀ c ∈ a.components, coreServices.lookup c.1 = none → textWithin 256 ("core." ++ c.1) = true
  /-- A package that is no candidate is reported missing. -/
  packages : ∀ pkg ∈ a.packages, (∃ r, offer L now a pkg = .error r) →
    textWithin 256 ("extension." ++ pkg.name) = true
  /-- A candidate is published with its display name, and answered with its key and versions. -/
  candidates : ∀ pkg ∈ a.packages, Accepted (offer L now a pkg) →
    textWithin 256 (nestedString pkg.content ["spec", "displayName"]) = true ∧
      Js.length (nestedString pkg.content ["spec", "trust", "keyId"]) ≤ 256 ∧
      Js.length pkg.resourceVersion ≤ 128 ∧ pkg.generation ≤ Js.maxSafeInteger
  /-- A Foundation module is published or reported missing. -/
  modules : ∀ item ∈ a.descriptors, textWithin 256 ("foundation." ++ item.name) = true
  /-- One with an image is published with its name and its capabilities. -/
  offered : ∀ item ∈ a.descriptors,
    imageDigest (nestedString item.content ["spec", "operator", "image"]) ≠ "" →
    textWithin 256 item.name = true ∧ (moduleCapabilities item).length ≤ 128 ∧
      ∀ c ∈ moduleCapabilities item, textWithin 128 c = true

theorem Printable.within (h : Printable s) (hpos : 1 ≤ (chars s).length)
    (hlength : (chars s).length ≤ n) : textWithin n s = true := by
  unfold textWithin
  rw [Bool.and_eq_true_iff, decide_eq_true_eq, h.length, Bool.not_eq_true', List.any_eq_false]
  refine ⟨⟨hpos, hlength⟩, fun c hc => ?_⟩
  have hprint := h c hc
  simp only [printable, Bool.and_eq_true, decide_eq_true_eq] at hprint
  simp only [control, Bool.or_eq_true, decide_eq_true_eq, beq_iff_eq]
  omega

theorem literal_within
    (h : (chars s).all printable = true ∧ 1 ≤ (chars s).length ∧ (chars s).length ≤ n) :
    textWithin n s = true :=
  (printable_text h.1).within h.2.1 h.2.2

theorem keys_enabled (ms : Members) : (enabledContributions ms).Sublist ms.keys := by
  fun_induction enabledContributions ms with
  | case1 => exact .slnil
  | case2 k x ms ih =>
      rw [Members.keys]
      split
      · exact ih.cons_cons _
      · exact ih.cons _

/-- The capabilities of a candidate are some of the contributions that the schema has. -/
theorem Admitted.capabilities (h : Admitted pkg) :
    (candidateOf pkg).capabilities.length ≤ 128 ∧
      ∀ c ∈ (candidateOf pkg).capabilities, textWithin 128 c = true := by
  have hsub := keys_enabled (nestedMap pkg.content ["spec", "contributions"])
  have hmem : ∀ c ∈ (candidateOf pkg).capabilities, c ∈ contributionNames :=
    fun c hc => h.known c (hsub.subset (mem_sortOn.mp hc))
  refine ⟨?_, fun c hc => ?_⟩
  · have hlength : (candidateOf pkg).capabilities.length =
        (enabledContributions (nestedMap pkg.content ["spec", "contributions"])).length :=
      (sortOn_perm _ _).length_eq
    have hnodup := hsub.nodup h.distinct
    have hbound : (enabledContributions (nestedMap pkg.content ["spec", "contributions"])).length ≤
        contributionNames.length :=
      (List.subperm_of_subset hnodup fun c hc => h.known c (hsub.subset hc)).length_le
    rw [hlength]
    exact le_trans hbound (by decide)
  · have hall : contributionNames.all (textWithin 128) = true := by decide
    exact List.all_eq_true.mp hall c (hmem c hc)

/-! ## The limits of one object -/

theorem textWithin_append {t : String} {m : Nat} (hs : Printable s)
    (ht : textWithin m t = true) (hlength : (chars s).length + m ≤ n) : textWithin n (s ++ t) = true := by
  unfold textWithin at ht ⊢
  rw [Bool.and_eq_true_iff, decide_eq_true_eq, Bool.not_eq_true', List.any_eq_false] at ht ⊢
  obtain ⟨⟨hpos, hmax⟩, hplain⟩ := ht
  have hunits : Js.length (s ++ t) = (chars s).length + Js.length t := by
    rw [← hs.length, Js.length, Js.length, Js.length, Js.units, Js.units, Js.units, chars_append,
      List.flatMap_append, List.length_append]
  refine ⟨⟨by omega, by omega⟩, fun c hc => ?_⟩
  rw [chars_append] at hc
  rcases List.mem_append.mp hc with hc | hc
  · have hprint := hs c hc
    simp only [printable, Bool.and_eq_true, decide_eq_true_eq] at hprint
    simp only [control, Bool.or_eq_true, decide_eq_true_eq, beq_iff_eq]
    omega
  · exact hplain c hc

def CoreServiceMetadata.within (m : CoreServiceMetadata) : Bool :=
  decide (m.capabilities.length ≤ 128) && m.capabilities.all (textWithin 128) && textWithin 256 m.id &&
    textWithin 256 m.displayName && textWithin 128 m.domain && textWithin 128 m.ownerId &&
    textWithin 512 m.lifecycleApi

theorem metadata_within {name : String} {m : CoreServiceMetadata}
    (h : coreServices.lookup name = some m) : m.within = true := by
  have hall : (coreServices.all fun e => e.2.within) = true := by decide
  exact List.all_eq_true.mp hall (name, m) (mem_of_lookup h)

theorem coreDescriptor_within {a : Input} {d : Descriptor}
    (h : coreDescriptor a c = .ok d) : d.Within := by
  unfold coreDescriptor at h
  split at h
  · cases h
  · rename_i m hm
    simp only at h
    split at h
    · cases h
    · obtain rfl := Except.ok.inj h
      have hwithin := metadata_within hm
      simp only [CoreServiceMetadata.within, Bool.and_eq_true, decide_eq_true_eq,
        List.all_eq_true] at hwithin
      obtain ⟨⟨⟨⟨⟨⟨hcount, hcaps⟩, hid⟩, hname⟩, hdomain⟩, howner⟩, hapi⟩ := hwithin
      exact ⟨hcount, hcaps, hid, hname, hdomain, howner, fun _ => hapi⟩

theorem candidateDescriptor_within (h : Offered pkg) (hadmitted : Admitted pkg) :
    (candidateDescriptor (candidateOf pkg)).Within ↔
      textWithin 256 (nestedString pkg.content ["spec", "displayName"]) = true := by
  obtain ⟨hprint, hpos, hmax⟩ := extensionId_printable h.id
  have hpart : ∀ (s : String) (n : Nat), (chars s).all printable = true → (chars s).length + 63 ≤ n →
      textWithin n (s ++ pkg.name) = true := by
    intro s n hs hn
    refine ((printable_text hs).append hprint).within ?_ ?_
    · rw [length_append]
      omega
    · rw [length_append]
      omega
  refine ⟨Descriptor.Within.displayName, fun hname => ?_⟩
  have hdomain : textWithin 128 "console-extension" = true := literal_within (by decide)
  have howner : textWithin 128 "opensphere-console" = true := literal_within (by decide)
  exact ⟨hadmitted.capabilities.1, hadmitted.capabilities.2, hpart _ _ (by decide) (by decide), hname,
    hdomain, howner, fun _ => hpart _ _ (by decide) (by decide)⟩

theorem moduleDescriptor_within {item : Resource} {d : Descriptor} (h : moduleDescriptor item = .ok d) :
    d.Within ↔ textWithin 256 ("foundation." ++ item.name) = true ∧ textWithin 256 item.name = true ∧
      (moduleCapabilities item).length ≤ 128 ∧
      ∀ c ∈ moduleCapabilities item, textWithin 128 c = true := by
  unfold moduleDescriptor at h
  simp only at h
  split at h
  · cases h
  · obtain rfl := Except.ok.inj h
    constructor
    · intro hwithin
      refine ⟨hwithin.id, hwithin.displayName, ?_, fun c hc => ?_⟩
      · exact (sortOn_perm id (moduleCapabilities item)).length_eq ▸ hwithin.count
      · exact hwithin.capabilities c (mem_sortOn.mpr hc)
    · rintro ⟨hid, hname, hcount, hcaps⟩
      have hdomain : textWithin 128 "foundation" = true := literal_within (by decide)
      have howner : textWithin 128 "pfss.foundation" = true := literal_within (by decide)
      refine ⟨?_, fun c hc => hcaps c (mem_sortOn.mp hc), hid, hname, hdomain, howner, fun _ => ?_⟩
      · exact (sortOn_perm id (moduleCapabilities item)).length_eq.symm ▸ hcount
      · exact textWithin_append (printable_text (by decide)) hname (by decide)

theorem coreGap_within {a : Input}
    (h : coreDescriptor a c = .error g) :
    g.Within ↔ (coreServices.lookup c.1 = none → textWithin 256 ("core." ++ c.1) = true) := by
  unfold coreDescriptor at h
  split at h
  · rename_i hnone
    obtain rfl := Except.error.inj h
    have hcode : textWithin 128 "DescriptorMissing" = true := literal_within (by decide)
    have hmessage : textWithin 500 "release component has no Registry metadata adapter" = true :=
      literal_within (by decide)
    exact ⟨fun hwithin _ => hwithin.id, fun hid => ⟨hid hnone, hcode, hmessage⟩⟩
  · rename_i m hm
    simp only at h
    split at h
    · obtain rfl := Except.error.inj h
      have hid := metadata_within hm
      simp only [CoreServiceMetadata.within, Bool.and_eq_true] at hid
      have hmessage : textWithin 500 "canonical release component lacks exact release evidence" = true :=
        literal_within (by decide)
      have hcode : textWithin 128 "DigestMissing" = true ∧
          textWithin 128 "ReleaseEvidenceMissing" = true :=
        ⟨literal_within (by decide), literal_within (by decide)⟩
      refine iff_of_true ⟨hid.1.1.1.1.2, ?_, hmessage⟩ fun hnone => ?_
      · split
        · exact hcode.1
        · exact hcode.2
      · rw [hm] at hnone
        cases hnone
    · cases h

theorem moduleGap_within {item : Resource} (h : moduleDescriptor item = .error g) :
    g.Within ↔ textWithin 256 ("foundation." ++ item.name) = true := by
  rw [moduleDescriptor_error h]
  have hcode : textWithin 128 "DigestMissing" = true := literal_within (by decide)
  have hmessage : textWithin 500
      "Foundation descriptor does not identify one exact-digest installable artifact" = true :=
    literal_within (by decide)
  exact ⟨CoverageGap.Within.id, fun hid => ⟨hid, hcode, hmessage⟩⟩

theorem installChecks_within {L : Library} {now : Int}
    {keys : List (String × String)} {check : Check} (h : check ∈ installChecks L now pkg keys) :
    textWithin 128 check.code = true ∧ textWithin 500 check.message = true := by
  have hall : ([("ModuleReleaseInvalid", "official module release is unverified, expired or unavailable"),
      ("ExecutionIdentityInvalid",
        "installable package lacks its canonical OpenSphere repository identity"),
      ("ExecutionIdentityInvalid", "installable package lacks a consistent exact-digest resolution"),
      ("ChannelUnsupported", "installable package is not in the local edge catalog"),
      ("SupplyChainIdentityInvalid",
        "installable package lacks manifest, source, or compatibility identity"),
      ("SignatureIdentityInvalid",
        "installable package signature identity does not match its trust declaration"),
      ("UnknownTrustKey", "installable package signing key is not trusted"),
      ("EdgeBuildAuthorityInvalid",
        "local edge package was not produced by the localhost build authority"),
      ("LocalEdgeEvidenceInvalid",
        "local edge evidence is not bound to the exact image and local edge policy"),
      ("PackageVersionMissing", "installable package lacks Kubernetes resource version evidence")].all
      fun e => textWithin 128 e.1 && textWithin 500 e.2) = true := by
    decide
  have hmem : (check.code, check.message) ∈
      (installChecks L now pkg keys).map fun c => (c.code, c.message) :=
    List.mem_map_of_mem h
  have hlengths := List.all_eq_true.mp hall (check.code, check.message) hmem
  exact Bool.and_eq_true_iff.mp hlengths

theorem packageGap_within {L : Library} {now : Int} {keys : List (String × String)}
    {r : Rejected} (h : installableExtensionFromPackage L now pkg keys = .error r) :
    (packageGap r).Within ↔ textWithin 256 ("extension." ++ pkg.name) = true := by
  unfold installableExtensionFromPackage at h
  split at h
  · rename_i check hcheck
    obtain rfl := Except.error.inj h
    obtain ⟨hcode, hmessage⟩ := installChecks_within (List.mem_of_find?_eq_some hcheck)
    exact ⟨CoverageGap.Within.id, fun hid => ⟨hid, hcode, hmessage⟩⟩
  · cases h

/-! ## The inventory of a snapshot -/

section

variable {L : Library} {now : String → Int} {a : Input}

theorem mem_candidates (h : a.Distinct) {c : ExtensionCandidate} :
    c ∈ (unrevised L now a).installableExtensions ↔
      ∃ pkg ∈ a.packages, offer L now a pkg = .ok c := by
  show c ∈ sortOn _ (draft L now a).candidates ↔ _
  rw [mem_sortOn, draft_candidates, looked_eq h.packages, mem_successes]
  exact List.mem_map

theorem accepted_moduleDescriptor (item : Resource) : Accepted (moduleDescriptor item) ↔
    imageDigest (nestedString item.content ["spec", "operator", "image"]) ≠ "" := by
  unfold moduleDescriptor
  simp only
  split
  · rename_i hempty
    simp [hempty]
  · rename_i hempty
    simp [hempty]

theorem listed_within (h : a.Distinct) (hadmitted : ∀ pkg ∈ a.packages, Admitted pkg) :
    (∀ d ∈ listed a (unrevised L now a).installableExtensions, d.Within) ↔
      (∀ pkg ∈ a.packages, Accepted (offer L now a pkg) →
        textWithin 256 (nestedString pkg.content ["spec", "displayName"]) = true) ∧
      ∀ item ∈ a.descriptors, Accepted (moduleDescriptor item) →
        textWithin 256 ("foundation." ++ item.name) = true ∧ textWithin 256 item.name = true ∧
          (moduleCapabilities item).length ≤ 128 ∧
          ∀ c ∈ moduleCapabilities item, textWithin 128 c = true := by
  unfold listed
  constructor
  · intro hall
    refine ⟨?_, ?_⟩
    · rintro pkg hpkg ⟨c, hoffer⟩
      have hmem := (mem_candidates h).mpr ⟨pkg, hpkg, hoffer⟩
      have hwithin := hall (candidateDescriptor c)
        (List.mem_append_left _ (List.mem_append_right _ (List.mem_map_of_mem hmem)))
      rw [offer_ok hoffer] at hwithin
      exact hwithin.displayName
    · rintro item hitem ⟨d, hd⟩
      have hmem : d ∈ successes (moduleResults a) :=
        mem_successes.mpr (List.mem_map.mpr ⟨item, hitem, hd⟩)
      exact (moduleDescriptor_within hd).mp (hall d (List.mem_append_right _ hmem))
  · rintro ⟨hpackages, hmodules⟩ d hd
    rcases List.mem_append.mp hd with hd | hd
    · rcases List.mem_append.mp hd with hd | hd
      · obtain ⟨c, -, hok⟩ := List.mem_map.mp (mem_successes.mp hd)
        exact coreDescriptor_within hok
      · obtain ⟨c, hc, rfl⟩ := List.mem_map.mp hd
        obtain ⟨pkg, hpkg, hoffer⟩ := (mem_candidates h).mp hc
        rw [offer_ok hoffer]
        exact (candidateDescriptor_within (offered_of_ok hoffer) (hadmitted pkg hpkg)).mpr
          (hpackages pkg hpkg ⟨c, hoffer⟩)
    · obtain ⟨item, hitem, hok⟩ := List.mem_map.mp (mem_successes.mp hd)
      exact (moduleDescriptor_within hok).mpr (hmodules item hitem ⟨d, hok⟩)

theorem mem_sourceGaps (h : a.Distinct) : g ∈ sourceGaps L now a ↔
    (∃ c ∈ a.components, coreDescriptor a c = .error g) ∨
    (∃ pkg ∈ a.packages, ∃ r, offer L now a pkg = .error r ∧ packageGap r = g) ∨
    ∃ item ∈ a.descriptors, moduleDescriptor item = .error g := by
  have hrejections : (draft L now a).candidateRejections =
      failures (a.packages.map (offer L now a)) := (draft_rejected h.packages).2
  rw [sourceGaps, gaps, collisions_nil h, List.append_nil, List.mem_append, List.mem_append, or_assoc,
    mem_failures, mem_failures, coreResults, moduleResults, List.mem_map, List.mem_map, hrejections,
    List.mem_map]
  refine or_congr Iff.rfl (or_congr ?_ Iff.rfl)
  constructor
  · rintro ⟨r, hr, hgap⟩
    obtain ⟨pkg, hpkg, hoffer⟩ := List.mem_map.mp (mem_failures.mp hr)
    exact ⟨pkg, hpkg, r, hoffer, hgap⟩
  · rintro ⟨pkg, hpkg, r, hoffer, hgap⟩
    exact ⟨r, mem_failures.mpr (List.mem_map.mpr ⟨pkg, hpkg, hoffer⟩), hgap⟩

theorem coreDescriptor_unknown (h : coreServices.lookup c.1 = none) :
    ∃ g, coreDescriptor a c = .error g := by
  unfold coreDescriptor
  rw [h]
  exact ⟨_, rfl⟩

theorem gaps_within (h : a.Distinct) :
    (∀ g ∈ sourceGaps L now a, g.Within) ↔
      (∀ c ∈ a.components, coreServices.lookup c.1 = none → textWithin 256 ("core." ++ c.1) = true) ∧
      (∀ pkg ∈ a.packages, (∃ r, offer L now a pkg = .error r) →
        textWithin 256 ("extension." ++ pkg.name) = true) ∧
      ∀ item ∈ a.descriptors, ¬ Accepted (moduleDescriptor item) →
        textWithin 256 ("foundation." ++ item.name) = true := by
  constructor
  · intro hall
    refine ⟨fun c hc hnone => ?_, ?_, fun item hitem hrefused => ?_⟩
    · obtain ⟨g, hg⟩ := coreDescriptor_unknown (a := a) hnone
      exact (coreGap_within hg).mp (hall g ((mem_sourceGaps h).mpr (.inl ⟨c, hc, hg⟩))) hnone
    · rintro pkg hpkg ⟨r, hr⟩
      exact (packageGap_within hr).mp (hall _ ((mem_sourceGaps h).mpr (.inr (.inl ⟨pkg, hpkg, r, hr, rfl⟩))))
    · cases hresult : moduleDescriptor item with
      | ok d => exact absurd ⟨d, hresult⟩ hrefused
      | error g =>
          exact (moduleGap_within hresult).mp
            (hall g ((mem_sourceGaps h).mpr (.inr (.inr ⟨item, hitem, hresult⟩))))
  · rintro ⟨hcomponents, hpackages, hmodules⟩ g hg
    rcases (mem_sourceGaps h).mp hg with ⟨c, hc, hg⟩ | ⟨pkg, hpkg, r, hr, rfl⟩ | ⟨item, hitem, hg⟩
    · exact (coreGap_within hg).mpr (hcomponents c hc)
    · exact (packageGap_within hr).mpr (hpackages pkg hpkg ⟨r, hr⟩)
    · refine (moduleGap_within hg).mpr (hmodules item hitem ?_)
      rw [hg]
      exact not_accepted_error g

/-- The counts of a snapshot are consistent, and within the limits if there are few objects. -/
theorem coverage_within (h : a.Distinct)
    (hcount : a.components.length + a.packages.length + a.descriptors.length ≤ 2000) :
    (unrevised L now a).inventory.coverage.Within ↔ ∀ g ∈ sourceGaps L now a, g.Within := by
  have hpublished : (unrevised L now a).inventory.coverage.published =
      (listed a (unrevised L now a).installableExtensions).length := by
    have hlength := congrArg List.length (@published_eq L now a h)
    rw [sorted, (sortOn_perm _ _).length_eq] at hlength
    exact congrArg Int.ofNat hlength
  have hmissing : (unrevised L now a).inventory.coverage.missing =
      sortOn CoverageGap.key (sourceGaps L now a) := rfl
  have hexpected : (unrevised L now a).inventory.coverage.expected =
      a.components.length + a.packages.length + a.descriptors.length := rfl
  have hrejected : (unrevised L now a).inventory.coverage.rejected = (sourceGaps L now a).length := by
    rw [← countP_classes, Int.natCast_add, Int.natCast_add]
    rfl
  have hsum := @length_listed L now a h
  have hlength : (sortOn CoverageGap.key (sourceGaps L now a)).length = (sourceGaps L now a).length :=
    (sortOn_perm _ _).length_eq
  constructor
  · intro hwithin g hg
    exact hwithin.gaps g (hmissing ▸ mem_sortOn.mpr hg)
  · intro hgaps
    refine ⟨?_, ?_, ?_, ?_, ?_, ?_⟩
    · rw [hexpected]
      omega
    · rw [hpublished]
      omega
    · rw [hrejected]
      omega
    · rw [hmissing, hlength]
      omega
    · rw [hmissing, hlength, hpublished, hexpected, hrejected]
      omega
    · intro g hg
      rw [hmissing] at hg
      exact hgaps g (mem_sortOn.mp hg)

theorem revisionOf_pattern (L : Library) (content : Value) :
    Js.test revisionPattern (revisionOf L content) = true := by
  have hmanifest : manifestFormat (ConsoleIdentity.encodeHex (L.sha256 (marshal content))) = true := by
    rw [manifestFormat_iff, ConsoleIdentity.encodeHex, chars_ofList]
    refine ⟨fun c hc => ?_, ?_⟩
    · obtain ⟨b, -, hb⟩ := List.mem_flatMap.mp hc
      rcases List.mem_pair.mp hb with rfl | rfl
      · exact hexLower_digitChar (Nat.div_lt_of_lt_mul b.toNat_lt)
      · exact hexLower_digitChar (Nat.mod_lt _ (by decide))
    · rw [List.length_flatMap]
      simp [L.octets]
  have hprint : Printable (revisionOf L content) :=
    (printable_text (by decide)).append (manifestFormat_printable hmanifest)
  rw [hprint.test, revisionOf, revisionPattern, full_text_append]
  exact hmanifest

/-! ## Answers -/

/-- The client takes the snapshot, and the answers that are made of it to requests of its own. -/
def Readable (dateParse : String → Option Int) (r : Response) : Prop :=
  Accepted (validateCatalogSnapshot dateParse (r.json false)) ∧
  ∀ (s : Store) (t : Int) (req : ResolveRequest), s.snapshot = some r → req.kind = "extension" →
    Js.test descriptorIdPattern req.id = true → (s.resolve t req).result = "Eligible" →
    Accepted (validateEligible (s.resolve t req).json req.id req.revision)

theorem resolve_eligible {s : Store} {t : Int} {req : ResolveRequest}
    (hsnapshot : s.snapshot = some r) (hkind : req.kind = "extension")
    (heligible : (s.resolve t req).result = "Eligible") :
    req.revision = r.revision ∧ ∃ c ∈ r.installableExtensions,
      (c.id = req.id ∨ c.descriptorId = req.id) ∧ s.resolve t req = eligible c r.revision := by
  unfold Store.resolve at heligible ⊢
  rw [hsnapshot] at heligible ⊢
  simp only at heligible ⊢
  split_ifs at heligible ⊢ with hstale hrevision hkinds hchannel
  iterate 4 exact absurd heligible (by simp [ResolveResponse.blocked])
  refine ⟨not_not.mp hrevision, ?_⟩
  have hcandidate : r.candidate req =
      (r.installableExtensions.find? fun c => c.id = req.id || c.descriptorId = req.id).map
        (·.answer r.revision) := by
    unfold Response.candidate
    rw [if_pos hkind]
  rw [hcandidate] at heligible ⊢
  cases hfind : r.installableExtensions.find? fun c => c.id = req.id || c.descriptorId = req.id with
  | none =>
      rw [hfind] at heligible
      exact absurd heligible (by simp [ResolveResponse.blocked])
  | some c =>
      have hmatch := List.find?_some hfind
      simp only [Bool.or_eq_true, decide_eq_true_eq] at hmatch
      exact ⟨c, List.mem_of_find?_eq_some hfind, hmatch, rfl⟩

theorem extensionId_ne_descriptorId {id : String} (h : extensionId id = true) :
    Js.test descriptorIdPattern id = false := by
  obtain ⟨c, t, hchars, hc, ht, -⟩ := extensionId_iff.mp h
  rw [Bool.eq_false_iff, (extensionId_printable h).1.test, descriptorIdPattern, Pattern.full,
    Ne, Pattern.seq_cons, Pattern.text_iff]
  rintro ⟨rest, heq, -⟩
  have hdot : '.' ∈ chars id := by
    rw [heq]
    exact List.mem_append_left _ (by decide)
  rw [hchars] at hdot
  rcases List.mem_cons.mp hdot with rfl | hdot
  · exact absurd hc (by decide)
  · exact absurd (ht _ hdot) (by decide)

theorem descriptorId_test {id : String} (h : extensionId id = true) :
    Js.test descriptorIdPattern ("extension." ++ id) = true := by
  have hprint : Printable ("extension." ++ id) :=
    (printable_text (by decide)).append (extensionId_printable h).1
  rw [hprint.test, descriptorIdPattern, full_text_append]
  exact h

/-- A request for a candidate of a snapshot is answered with that candidate. -/
theorem resolve_candidate {c : ExtensionCandidate} (hc : c ∈ r.installableExtensions)
    (hunique : ∀ c' ∈ r.installableExtensions,
      c'.id = c.descriptorId ∨ c'.descriptorId = c.descriptorId → c' = c) :
    (Store.mk (some r) (some 0) "").resolve 0 ⟨"extension", c.descriptorId, "", "", r.revision⟩ =
      eligible c r.revision := by
  have hfind : (r.installableExtensions.find? fun c' =>
      c'.id = c.descriptorId || c'.descriptorId = c.descriptorId) = some c := by
    cases hfind : r.installableExtensions.find? fun c' =>
        c'.id = c.descriptorId || c'.descriptorId = c.descriptorId with
    | none =>
        have hnone := List.find?_eq_none.mp hfind c hc
        simp at hnone
    | some c' =>
        have hmatch := List.find?_some hfind
        simp only [Bool.or_eq_true, decide_eq_true_eq] at hmatch
        rw [hunique c' (List.mem_of_find?_eq_some hfind) hmatch]
  have hstale : (Store.mk (some r) (some 0) "").stale 0 = false := by
    show (("" : String) != "" || decide (freshnessTarget < 0 - 0)) = false
    decide
  unfold Store.resolve
  simp [hstale, Response.candidate, hfind, eligible]

/-- The answers are accepted exactly if the keys and the versions are within the limits. -/
theorem answers_iff (h : a.Distinct) (hbuild : build L now a = .ok r) :
    (∀ (s : Store) (t : Int) (req : ResolveRequest), s.snapshot = some r → req.kind = "extension" →
      Js.test descriptorIdPattern req.id = true → (s.resolve t req).result = "Eligible" →
      Accepted (validateEligible (s.resolve t req).json req.id req.revision)) ↔
    ∀ pkg ∈ a.packages, Accepted (offer L now a pkg) →
      Js.length (nestedString pkg.content ["spec", "trust", "keyId"]) ≤ 256 ∧
        Js.length pkg.resourceVersion ≤ 128 ∧ pkg.generation ≤ Js.maxSafeInteger := by
  have hextensions : r.installableExtensions = (unrevised L now a).installableExtensions := by
    unfold build at hbuild
    split at hbuild
    · cases hbuild
    · obtain rfl := Except.ok.inj hbuild
      rfl
  constructor
  · rintro hall pkg hpkg ⟨c, hoffer⟩
    have hoffered := offered_of_ok hoffer
    have hc : c ∈ r.installableExtensions := by
      rw [hextensions]
      exact (mem_candidates h).mpr ⟨pkg, hpkg, hoffer⟩
    obtain rfl := offer_ok hoffer
    -- names are distinct, so the answer is about this candidate
    have hunique : ∀ c' ∈ r.installableExtensions, c'.id = (candidateOf pkg).descriptorId ∨
        c'.descriptorId = (candidateOf pkg).descriptorId → c' = candidateOf pkg := by
      rintro c' hc' hmatch
      rw [hextensions] at hc'
      obtain ⟨pkg', hpkg', hoffer'⟩ := (mem_candidates h).mp hc'
      have hid := (offered_of_ok hoffer').id
      obtain rfl := offer_ok hoffer'
      rcases hmatch with hmatch | hmatch
      · have htest := descriptorId_test hoffered.id
        have hname : pkg'.name = "extension." ++ pkg.name := hmatch
        rw [← hname, extensionId_ne_descriptorId hid] at htest
        cases htest
      · have hname : pkg'.name = pkg.name := (String.append_right_inj _).mp hmatch
        rw [h.package hpkg' hpkg hname]
    have hanswer := resolve_candidate hc hunique
    have haccepted := hall _ 0 ⟨"extension", (candidateOf pkg).descriptorId, "", "", r.revision⟩ rfl rfl
      (descriptorId_test hoffered.id) (by rw [hanswer]; rfl)
    rw [hanswer] at haccepted
    exact (validateEligible_answer hoffered r.revision).mp haccepted
  · intro hlimits s t req hsnapshot hkind htest heligible
    obtain ⟨hrevision, c, hc, hmatch, hanswer⟩ := resolve_eligible hsnapshot hkind heligible
    rw [hextensions] at hc
    obtain ⟨pkg, hpkg, hoffer⟩ := (mem_candidates h).mp hc
    have hoffered := offered_of_ok hoffer
    have hlimit := hlimits pkg hpkg ⟨c, hoffer⟩
    obtain rfl := offer_ok hoffer
    have hid : req.id = "extension." ++ pkg.name := by
      rcases hmatch with hmatch | hmatch
      · have hname : pkg.name = req.id := hmatch
        rw [← hname, extensionId_ne_descriptorId hoffered.id] at htest
        cases htest
      · exact hmatch.symm
    rw [hanswer, hid, hrevision]
    exact (validateEligible_answer hoffered r.revision).mpr hlimit

/-! ## The contract -/

/-- The snapshot of sources that the schema allows, and the answers made of it, are accepted by the
client exactly if the texts that the sources leave open are within its limits. -/
theorem answers_accepted {dateParse : String → Option Int} {r : Response}
    (hbuild : build L now a = .ok r) (hdistinct : a.Distinct)
    (hadmitted : ∀ pkg ∈ a.packages, Admitted pkg)
    (hcount : a.components.length + a.packages.length + a.descriptors.length ≤ 2000)
    (hobserved : Js.length a.observedAt ≤ 64 ∧ (dateParse a.observedAt).isSome = true) :
    Readable dateParse r ↔ a.Limited L now := by
  have hinventory : r.inventory = (unrevised L now a).inventory ∧ r.observedAt = a.observedAt ∧
      r.revision = revisionOf L (unrevised L now a).content := by
    unfold build at hbuild
    split at hbuild
    · cases hbuild
    · obtain rfl := Except.ok.inj hbuild
      exact ⟨rfl, rfl, rfl⟩
  obtain ⟨hinventory, hat, hrevision⟩ := hinventory
  have hdescriptors : r.inventory.descriptors = sorted a (unrevised L now a).installableExtensions := by
    rw [hinventory]
    exact published_eq hdistinct
  have hsnapshot : r.Within dateParse ↔
      (∀ g ∈ sourceGaps L now a, g.Within) ∧
        ∀ d ∈ listed a (unrevised L now a).installableExtensions, d.Within := by
    have hlength := @length_listed L now a hdistinct
    constructor
    · intro hwithin
      refine ⟨(coverage_within hdistinct hcount).mp (hinventory ▸ hwithin.coverage), fun d hd => ?_⟩
      exact hwithin.published d (hdescriptors ▸ mem_sortOn.mpr hd)
    · rintro ⟨hgaps, hlisted⟩
      refine ⟨?_, hrevision ▸ revisionOf_pattern L _, hat ▸ hobserved,
        hinventory ▸ (coverage_within hdistinct hcount).mpr hgaps, fun d hd => ?_⟩
      · rw [hdescriptors, sorted, (sortOn_perm _ _).length_eq]
        omega
      · rw [hdescriptors] at hd
        exact hlisted d (mem_sortOn.mp hd)
  unfold Readable
  rw [validateCatalogSnapshot_json, hsnapshot, gaps_within hdistinct, listed_within hdistinct hadmitted,
    answers_iff hdistinct hbuild]
  constructor
  · rintro ⟨⟨⟨hcomponents, hpackages, hmissing⟩, hnames, hmodules⟩, hkeys⟩
    refine ⟨hcomponents, hpackages, fun pkg hpkg hoffer => ⟨hnames pkg hpkg hoffer, hkeys pkg hpkg hoffer⟩,
      fun item hitem => ?_, fun item hitem himage => ?_⟩
    · by_cases haccepted : Accepted (moduleDescriptor item)
      · exact (hmodules item hitem haccepted).1
      · exact hmissing item hitem haccepted
    · exact (hmodules item hitem ((accepted_moduleDescriptor item).mpr himage)).2
  · intro hlimited
    refine ⟨⟨⟨hlimited.components, hlimited.packages, fun item hitem _ => hlimited.modules item hitem⟩,
      fun pkg hpkg hoffer => (hlimited.candidates pkg hpkg hoffer).1, fun item hitem haccepted => ?_⟩,
      fun pkg hpkg hoffer => (hlimited.candidates pkg hpkg hoffer).2⟩
    exact ⟨hlimited.modules item hitem,
      hlimited.offered item hitem ((accepted_moduleDescriptor item).mp haccepted)⟩

end

namespace Demo

def image : String := repository ++ "@sha256:" ++ digits 64 'a'

/-- A package of the plugin `postgres` that can be installed, with a display name. -/
def installable (displayName : String) : Resource :=
  { package ("sha256:" ++ digits 64 'a') with
    content := .ofList [("spec", .ofList [("displayName", .string displayName),
      ("kind", .string "plugin"), ("trust", .ofList [("keyId", .string "key-1")]),
      ("image", .ofList [("repository", .string repository),
        ("digest", .string ("sha256:" ++ digits 64 'a'))]),
      ("manifest", .ofList [("sha256", .string (digits 64 'b'))]),
      ("contributions", .ofList [("page", .ofList [("enabled", .boolean true)])]),
      ("resolution", .ofList [("requestedRef", .string (repository ++ ":edge")),
        ("requestedChannel", .string "edge"), ("resolvedDigest", .string ("sha256:" ++ digits 64 'a')),
        ("revision", .string (digits 40 'c')), ("compatibilityVersion", .string "1.0.0"),
        ("signatureIdentity", .string "key-1"), ("buildAuthority", .string "localhost"),
        ("evidenceRefs", textList (localEdgeEvidenceRefs image))])])] }

def installableSources (displayName : String) : Input :=
  sources (installable displayName) (registration "") "key-1"

theorem installableSources_distinct (name : String) : (installableSources name).Distinct :=
  ⟨List.nodup_singleton _, List.nodup_singleton _, List.nodup_nil, List.nodup_singleton _⟩

theorem installable_admitted (name : String) :
    ∀ pkg ∈ (installableSources name).packages, Admitted pkg := by
  intro pkg hpkg
  obtain rfl := List.mem_singleton.mp hpkg
  have hkeys : (nestedMap (installable name).content ["spec", "contributions"]).keys = ["page"] := rfl
  refine ⟨hkeys ▸ List.nodup_singleton _, fun k hk => ?_⟩
  rw [hkeys] at hk
  rw [List.mem_singleton.mp hk]
  decide

theorem installable_offered (name : String)
    (h : (refusal (installChecks library 0 (installable name) [("key-1", "spki")])).isNone = true) :
    offer library (fun _ => 0) (installableSources name) (installable name) =
      .ok (candidateOf (installable name)) := by
  show installableExtensionFromPackage library 0 (installable name) [("key-1", "spki")] = _
  unfold installableExtensionFromPackage
  rw [Option.isNone_iff_eq_none.mp h]

end Demo

theorem named_package_readable : ∃ r,
    build Demo.library (fun _ => 0) (Demo.installableSources "PostgreSQL") = .ok r ∧
      Readable (fun _ => some 0) r := by
  have hoffer := Demo.installable_offered "PostgreSQL" (by decide +kernel)
  refine ⟨_, rfl, (answers_accepted rfl (Demo.installableSources_distinct _) (Demo.installable_admitted _)
    (by decide) (by decide)).mpr ⟨?_, ?_, ?_, nofun, nofun⟩⟩
  · intro c hc hnone
    obtain rfl := List.mem_singleton.mp hc
    exact absurd hnone (by decide)
  · rintro pkg hpkg ⟨r, hr⟩
    obtain rfl := List.mem_singleton.mp hpkg
    rw [hoffer] at hr
    cases hr
  · rintro pkg hpkg -
    obtain rfl := List.mem_singleton.mp hpkg
    decide

/-- A display name with a line break makes the whole catalog unreadable. -/
theorem line_break_unreadable : ∃ r,
    build Demo.library (fun _ => 0) (Demo.installableSources "Postgre\nSQL") = .ok r ∧
      (∀ pkg ∈ (Demo.installableSources "Postgre\nSQL").packages, Admitted pkg) ∧
      Js.length "Postgre\nSQL" ≤ 256 ∧ r.inventory.descriptors.length ≤ 2000 ∧
      ¬ Accepted (validateCatalogSnapshot (fun _ => some 0) (r.json false)) := by
  have hoffer := Demo.installable_offered "Postgre\nSQL" (by decide +kernel)
  refine ⟨_, rfl, Demo.installable_admitted _, by decide +kernel, by decide +kernel, ?_⟩
  rw [validateCatalogSnapshot_json]
  intro hwithin
  have hcandidate : candidateOf (Demo.installable "Postgre\nSQL") ∈ (unrevised Demo.library (fun _ => 0)
      (Demo.installableSources "Postgre\nSQL")).installableExtensions :=
    (mem_candidates (Demo.installableSources_distinct _)).mpr
      ⟨Demo.installable "Postgre\nSQL", List.mem_singleton_self _, hoffer⟩
  have hpublished : candidateDescriptor (candidateOf (Demo.installable "Postgre\nSQL")) ∈
      (unrevised Demo.library (fun _ => 0)
        (Demo.installableSources "Postgre\nSQL")).inventory.descriptors := by
    rw [published_eq (Demo.installableSources_distinct _)]
    exact mem_sortOn.mpr (List.mem_append_left _ (List.mem_append_right _ (List.mem_map_of_mem hcandidate)))
  exact absurd (hwithin.published _ hpublished).displayName (by decide)

end Catalog
