import Mathlib.Data.List.Dedup
import OpenSphere.Catalog.Client
import OpenSphere.Catalog.Printable

/-!
# What the client checks of what the Registry writes

The producer and the consumer state one contract twice.  Each document that the Registry writes is
accepted by the client exactly if the texts and the counts in it are within the limits of the client.
-/

open Sql
open Js (Value Values Members)

namespace Catalog

variable {label s t : String}

/-! ## Results that are accepted -/

def Accepted {ε α : Type} (x : Except ε α) : Prop := ∃ a, x = .ok a

section

variable {ε α β : Type}

@[simp] theorem accepted_ok (a : α) : Accepted (.ok a : Except ε α) := ⟨a, rfl⟩

@[simp] theorem accepted_pure (a : α) : Accepted (pure a : Except ε α) := ⟨a, rfl⟩

@[simp] theorem not_accepted_error (e : ε) : ¬ Accepted (.error e : Except ε α) := by
  rintro ⟨a, h⟩
  cases h

theorem accepted_bind {x : Except ε α} {f : α → Except ε β} :
    Accepted (x >>= f) ↔ ∃ a, x = .ok a ∧ Accepted (f a) := by
  cases x with
  | error e =>
      refine ⟨fun h => absurd h (not_accepted_error e), ?_⟩
      rintro ⟨a, h, -⟩
      cases h
  | ok a =>
      refine ⟨fun h => ⟨a, rfl, h⟩, ?_⟩
      rintro ⟨b, h, haccepted⟩
      obtain rfl := Except.ok.inj h
      exact haccepted

theorem accepted_bind_iff {x : Except ε α} {f : α → Except ε β} {Q : Prop}
    (h : ∀ a, Accepted (f a) ↔ Q) : Accepted (x >>= f) ↔ Accepted x ∧ Q := by
  rw [accepted_bind]
  constructor
  · rintro ⟨a, ha, hf⟩
    exact ⟨⟨a, ha⟩, (h a).mp hf⟩
  · rintro ⟨⟨a, ha⟩, hQ⟩
    exact ⟨a, ha, (h a).mpr hQ⟩

theorem accepted_bind_const {x : Except ε α} {y : Except ε β} :
    Accepted (x >>= fun _ => y) ↔ Accepted x ∧ Accepted y :=
  accepted_bind_iff fun _ => Iff.rfl

theorem accepted_bind_pure {x : Except ε α} {f : α → β} :
    Accepted (x >>= fun a => pure (f a)) ↔ Accepted x := by
  rw [accepted_bind_iff (Q := True) fun a => by simp, and_true]

theorem accepted_mapM {f : α → Except ε β} {l : List α} :
    Accepted (l.mapM f) ↔ ∀ a ∈ l, Accepted (f a) := by
  induction l with
  | nil => simp
  | cons a l ih =>
      rw [List.mapM_cons, accepted_bind, List.forall_mem_cons, ← ih]
      constructor
      · rintro ⟨b, hb, hrest⟩
        exact ⟨⟨b, hb⟩, accepted_bind_pure.mp hrest⟩
      · rintro ⟨⟨b, hb⟩, hrest⟩
        exact ⟨b, hb, accepted_bind_pure.mpr hrest⟩

end

@[simp] theorem accepted_require {c : Bool} {m : String} : Accepted (require c m) ↔ c = true := by
  cases c <;> simp [require]

theorem catalogText_accepted {n : Nat} :
    Accepted (catalogText (.string s) label n) ↔ textWithin n s = true := by
  simp only [catalogText]
  split
  · rename_i h
    simp [h]
  · rename_i h
    simp [h]

theorem catalogText_string {n : Nat} {β : Type}
    {f : String → Except Violation β} :
    Accepted (catalogText (.string s) label n >>= f) ↔ textWithin n s = true ∧ Accepted (f s) := by
  simp only [catalogText]
  split
  · rename_i h
    exact ⟨fun hf => ⟨h, hf⟩, fun hf => hf.2⟩
  · rename_i h
    exact ⟨fun hf => absurd hf (not_accepted_error _), fun hf => absurd hf.1 h⟩

/-! ## The client on what the Registry writes -/

theorem toList_ofList (l : List Value) : (Values.ofList l).toList = l := by
  induction l with
  | nil => rfl
  | cons x l ih => rw [Values.ofList, Values.toList, ih]

theorem safeInteger_integer (n : Int) : safeInteger (integer n) =
    if -Js.maxSafeInteger ≤ n ∧ n ≤ Js.maxSafeInteger then some n else none := by
  rw [integer, safeInteger, castWithin, decimal, chars_ofList, castSigned_decimalChars]
  simp only [Option.filter, decide_eq_true_eq]

theorem catalogCount_integer {n : Int} {β : Type} {f : Int → Except Violation β} :
    Accepted (catalogCount (integer n) label >>= f) ↔ (0 ≤ n ∧ n ≤ 2000) ∧ Accepted (f n) := by
  unfold catalogCount
  rw [safeInteger_integer]
  by_cases h : 0 ≤ n ∧ n ≤ 2000
  · have hsafe : -Js.maxSafeInteger ≤ n ∧ n ≤ Js.maxSafeInteger := by
      unfold Js.maxSafeInteger
      omega
    simp [hsafe, h, Option.filter, bind, Except.bind]
  · by_cases hsafe : -Js.maxSafeInteger ≤ n ∧ n ≤ Js.maxSafeInteger
    · simp [hsafe, h, Option.filter, bind, Except.bind]
    · simp [hsafe, h, Option.filter, bind, Except.bind]

structure CoverageGap.Within (g : CoverageGap) : Prop where
  id : textWithin 256 g.id = true
  code : textWithin 128 g.code = true
  message : textWithin 500 g.message = true

theorem validateGap_json (g : CoverageGap) : Accepted (validateGap g.json) ↔ g.Within := by
  have hclass : ["coreService", "extension", "installableModule"].any
      (isText (.string g.cls.text)) = true := by
    cases g.cls <;> decide
  unfold validateGap
  rw [accepted_bind_const, accepted_require]
  simp only [CoverageGap.json, Value.ofList, Members.ofList, Value.get, Members.get, isObject,
    Bool.true_and, String.reduceEq, if_true, if_false]
  rw [catalogText_string, catalogText_string, catalogText_string]
  constructor
  · rintro ⟨-, hid, hcode, hmessage, -⟩
    exact ⟨hid, hcode, hmessage⟩
  · intro h
    exact ⟨hclass, h.id, h.code, h.message, accepted_pure _⟩

structure Descriptor.Within (d : Descriptor) : Prop where
  count : d.capabilities.length ≤ 128
  capabilities : ∀ c ∈ d.capabilities, textWithin 128 c = true
  id : textWithin 256 d.id = true
  displayName : textWithin 256 d.displayName = true
  domain : textWithin 128 d.domain = true
  ownerId : textWithin 128 d.ownerId = true
  lifecycleApi : d.lifecycleApi ≠ "" → textWithin 512 d.lifecycleApi = true

theorem elements_ofList (l : List Value) (n : Nat) :
    elements (.array (.ofList l)) n = if l.length ≤ n then some l else none := by
  rw [elements, toList_ofList]

theorem validateDescriptor_json (d : Descriptor) :
    Accepted (validateDescriptor d.json) ↔ d.Within := by
  have hclass : textWithin 64 d.cls.text = true := by cases d.cls <;> decide
  have howner : Value.get d.json "owner" =
      .ofList (("id", .string d.ownerId) :: omitEmpty "lifecycleApi" d.lifecycleApi) := rfl
  have hcapabilities : Value.get d.json "capabilities" = textList d.capabilities := rfl
  have hapi : (Value.ofList (("id", .string d.ownerId) :: omitEmpty "lifecycleApi" d.lifecycleApi)).get
      "lifecycleApi" = if d.lifecycleApi = "" then .undefined else .string d.lifecycleApi := by
    unfold omitEmpty memberOf
    split <;> rfl
  unfold validateDescriptor
  rw [hcapabilities, textList, elements_ofList, List.length_map, howner, hapi]
  by_cases hcount : d.capabilities.length ≤ 128
  · rw [if_pos hcount]
    have hmap : Accepted ((d.capabilities.map Value.string).mapM fun capability =>
        catalogText capability "capability" 128) ↔
          ∀ c ∈ d.capabilities, textWithin 128 c = true := by
      rw [accepted_mapM, List.forall_mem_map]
      exact forall₂_congr fun c _ => catalogText_accepted
    show Accepted (List.mapM _ _ >>= _) ↔ _
    rw [accepted_bind_iff (Q := textWithin 256 d.id = true ∧ textWithin 256 d.displayName = true ∧
      textWithin 128 d.domain = true ∧ textWithin 128 d.ownerId = true ∧
      (d.lifecycleApi ≠ "" → textWithin 512 d.lifecycleApi = true)), hmap]
    · constructor
      · rintro ⟨hcaps, hid, hname, hdomain, howner, hapi⟩
        exact ⟨hcount, hcaps, hid, hname, hdomain, howner, hapi⟩
      · intro h
        exact ⟨h.capabilities, h.id, h.displayName, h.domain, h.ownerId, h.lifecycleApi⟩
    · intro capabilities
      show Accepted (catalogText (.string d.id) _ _ >>= _) ↔ _
      rw [catalogText_string]
      show _ ∧ Accepted (catalogText (.string d.cls.text) _ _ >>= _) ↔ _
      rw [catalogText_string]
      show _ ∧ _ ∧ Accepted (catalogText (.string d.displayName) _ _ >>= _) ↔ _
      rw [catalogText_string]
      show _ ∧ _ ∧ _ ∧ Accepted (catalogText (.string d.domain) _ _ >>= _) ↔ _
      rw [catalogText_string]
      show _ ∧ _ ∧ _ ∧ _ ∧ Accepted (catalogText (.string d.ownerId) _ _ >>= _) ↔ _
      rw [catalogText_string, accepted_bind_pure]
      have hlast : Accepted (lifecycleText (if d.lifecycleApi = "" then Value.undefined
          else .string d.lifecycleApi)) ↔
            (d.lifecycleApi ≠ "" → textWithin 512 d.lifecycleApi = true) := by
        by_cases hempty : d.lifecycleApi = ""
        · simp [hempty, lifecycleText]
        · simp [hempty, lifecycleText, catalogText_accepted]
      rw [hlast]
      simp only [hclass, true_and]
  · rw [if_neg hcount]
    exact ⟨fun h => absurd h (not_accepted_error _), fun h => absurd h.count hcount⟩

structure Coverage.Within (c : Coverage) : Prop where
  expected : 0 ≤ c.expected ∧ c.expected ≤ 2000
  published : 0 ≤ c.published ∧ c.published ≤ 2000
  rejected : 0 ≤ c.rejected ∧ c.rejected ≤ 2000
  listed : c.missing.length ≤ 2000
  counts : c.published ≤ c.expected ∧ (c.missing.length : Int) = c.expected - c.published ∧
    c.rejected ≤ c.missing.length
  gaps : ∀ g ∈ c.missing, g.Within

theorem validateCatalogCoverage_json (i : Inventory) :
    Accepted (validateCatalogCoverage (i.json.get "coverage")) ↔ i.coverage.Within := by
  have hmissing : (i.json.get "coverage").get "missing" =
      .array (.ofList (i.coverage.missing.map CoverageGap.json)) := rfl
  unfold validateCatalogCoverage
  rw [hmissing, elements_ofList, List.length_map]
  by_cases hlisted : i.coverage.missing.length ≤ 2000
  · rw [if_pos hlisted]
    show Accepted (catalogCount (integer i.coverage.expected) _ >>= _) ↔ _
    rw [catalogCount_integer]
    show _ ∧ Accepted (catalogCount (integer i.coverage.published) _ >>= _) ↔ _
    rw [catalogCount_integer]
    show _ ∧ _ ∧ Accepted (catalogCount (integer i.coverage.rejected) _ >>= _) ↔ _
    rw [catalogCount_integer, accepted_bind_const, accepted_require, accepted_bind_pure,
      accepted_mapM, List.forall_mem_map, List.length_map, decide_eq_true_eq]
    simp only [validateGap_json]
    constructor
    · rintro ⟨hexpected, hpublished, hrejected, hcounts, hgaps⟩
      exact ⟨hexpected, hpublished, hrejected, hlisted, hcounts, hgaps⟩
    · intro h
      exact ⟨h.expected, h.published, h.rejected, h.counts, h.gaps⟩
  · rw [if_neg hlisted]
    exact ⟨fun h => absurd h (not_accepted_error _), fun h => absurd h.listed hlisted⟩

theorem or_string (t : String) : ((Value.string t).or (.string "")).toText.getD "" = t := by
  unfold Value.or
  split
  · rfl
  · rename_i h
    have hempty : t = "" := by simpa [Value.truthy] using h
    rw [hempty]
    rfl

structure Response.Within (dateParse : String → Option Int) (r : Response) : Prop where
  descriptors : r.inventory.descriptors.length ≤ 2000
  revision : Js.test revisionPattern r.revision = true
  observed : Js.length r.observedAt ≤ 64 ∧ (dateParse r.observedAt).isSome = true
  coverage : r.inventory.coverage.Within
  published : ∀ d ∈ r.inventory.descriptors, d.Within

theorem validateCatalogSnapshot_json (dateParse : String → Option Int) (r : Response) :
    Accepted (validateCatalogSnapshot dateParse (r.json false)) ↔ r.Within dateParse := by
  have hdescriptors : ((r.json false).get "inventory").get "descriptors" =
      .array (.ofList (r.inventory.descriptors.map Descriptor.json)) := rfl
  have hrevision : (r.json false).get "revision" = .string r.revision := rfl
  have hobserved : (r.json false).get "observedAt" = .string r.observedAt := rfl
  have hinventory : (r.json false).get "inventory" = r.inventory.json := rfl
  have hschema : isText ((r.json false).get "schema") catalogSchema = true := beq_self_eq_true _
  unfold validateCatalogSnapshot
  simp only [hdescriptors, hrevision, hobserved, or_string, elements_ofList, List.length_map]
  by_cases hcount : r.inventory.descriptors.length ≤ 2000
  · rw [if_pos hcount]
    simp only
    rw [accepted_bind_const, accepted_require, hschema, Bool.true_and, Bool.and_eq_true]
    refine (and_congr_right' (?_ : _ ↔ (Js.length r.observedAt ≤ 64 ∧
      (dateParse r.observedAt).isSome = true) ∧ r.inventory.coverage.Within ∧
        ∀ d ∈ r.inventory.descriptors, d.Within)).trans ?_
    · by_cases hlength : Js.length r.observedAt ≤ 64
      · rw [if_pos hlength]
        cases hparse : dateParse r.observedAt with
        | none => simp
        | some instant =>
            simp only [hlength, Option.isSome_some, true_and]
            rw [accepted_bind_iff (Q := ∀ d ∈ r.inventory.descriptors, d.Within), hinventory,
              validateCatalogCoverage_json]
            intro coverage
            rw [accepted_bind_pure, accepted_mapM, List.forall_mem_map]
            simp only [validateDescriptor_json]
      · rw [if_neg hlength]
        simp [hlength]
    · constructor
      · rintro ⟨⟨hrev, -⟩, hobs, hcov, hpub⟩
        exact ⟨hcount, hrev, hobs, hcov, hpub⟩
      · intro h
        exact ⟨⟨h.revision, rfl⟩, h.observed, h.coverage, h.published⟩
  · rw [if_neg hcount]
    exact ⟨fun h => absurd h (not_accepted_error _), fun h => absurd h.descriptors hcount⟩

/-! ## Candidates -/

/-- What the checks of a package ensure of the candidate that it offers. -/
structure Offered (pkg : Resource) : Prop where
  id : extensionId pkg.name = true
  repository : nestedString pkg.content ["spec", "image", "repository"] =
    canonicalExtensionRepository (nestedString pkg.content ["spec", "kind"]) pkg.name
  format : repositoryFormat (nestedString pkg.content ["spec", "image", "repository"]) = true
  digest : digestFormat (nestedString pkg.content ["spec", "image", "digest"]) = true
  channel : nestedString pkg.content ["spec", "resolution", "requestedChannel"] = "edge"
  manifest : manifestFormat (nestedString pkg.content ["spec", "manifest", "sha256"]) = true
  source : sourceRevisionFormat (nestedString pkg.content ["spec", "resolution", "revision"]) = true
  compatibility :
    compatibilityVersionFormat (nestedString pkg.content ["spec", "resolution", "compatibilityVersion"]) =
      true
  key : nestedString pkg.content ["spec", "trust", "keyId"] ≠ ""
  authority : nestedString pkg.content ["spec", "resolution", "buildAuthority"] = "localhost"
  evidence : hasExactLocalEdgeEvidence (nestedSlice pkg.content ["spec", "resolution", "evidenceRefs"])
    (packageImage pkg) = true
  version : pkg.resourceVersion ≠ ""
  generation : 1 ≤ pkg.generation

theorem requestedRepository_format {ref : String} (h : requestedRepository ref ≠ "") :
    repositoryFormat (requestedRepository ref) = true := by
  unfold requestedRepository at h ⊢
  generalize String.ofList (withoutTag (chars (trimSpace ref))) = value at h ⊢
  simp only at h ⊢
  split
  · rename_i hformat
    exact hformat
  · rename_i hformat
    rw [if_neg hformat] at h
    exact absurd rfl h

theorem offered_of_ok {L : Library} {now : Int} {pkg : Resource} {keys : List (String × String)}
    {c : ExtensionCandidate} (h : installableExtensionFromPackage L now pkg keys = .ok c) :
    Offered pkg := by
  unfold installableExtensionFromPackage at h
  split at h
  · cases h
  · rename_i hnone
    have hchecks := List.find?_eq_none.mp hnone
    simp only [installChecks, List.forall_mem_cons, Bool.or_eq_true, Bool.not_eq_true', bne_iff_ne,
      beq_iff_eq, decide_eq_true_eq, not_or, Bool.not_eq_false, not_not, not_lt] at hchecks
    obtain ⟨-, hid, hdigest, hchannel, hsupply, hkey, -, hauthority, hevidence, hversion, -⟩ := hchecks
    have hpresent : requestedRepository (nestedString pkg.content
        ["spec", "resolution", "requestedRef"]) ≠ "" := by
      rw [hdigest.2, hid.2]
      exact hid.1.2
    have hrepository := requestedRepository_format hpresent
    rw [hdigest.2] at hrepository
    exact ⟨hid.1.1, hid.2, hrepository, hdigest.1.1, hchannel, hsupply.1.1, hsupply.1.2, hsupply.2,
      hkey.1, hauthority, hevidence, hversion.1, hversion.2⟩

theorem lastIndex_append {c : Char} {l d : List Char} (h : c ∉ d) :
    lastIndex c (l ++ c :: d) = l.length := by
  have hfind : (l ++ c :: d).reverse.idxOf? c = some d.length := by
    have hnone : d.reverse.findIdx? (· == c) = none := by
      rw [List.findIdx?_eq_none_iff]
      intro x hx
      rw [beq_eq_false_iff_ne]
      rintro rfl
      exact h (List.mem_reverse.mp hx)
    rw [List.reverse_append, List.reverse_cons, List.append_assoc]
    show List.findIdx? (· == c) _ = _
    rw [List.findIdx?_append, hnone, List.singleton_append, List.findIdx?_cons]
    simp
  rw [lastIndex, hfind]
  simp only [List.length_append, List.length_cons]
  omega

theorem afterAt_image {repository digest : String} (h : '@' ∉ chars digest) :
    afterAt (repository ++ "@" ++ digest) = digest := by
  have hchars : chars (repository ++ "@" ++ digest) = chars repository ++ '@' :: chars digest := by
    rw [chars_append, chars_append, List.append_assoc]
    rfl
  apply Js.chars_injective
  have hdrop : (chars repository ++ '@' :: chars digest).drop ((chars repository).length + 1) =
      chars digest := by
    rw [← List.drop_drop, List.drop_left]
    rfl
  rw [afterAt, chars_ofList, hchars, lastIndex_append h]
  exact hdrop

section

variable {pkg : Resource}

theorem canonicalExtensionRepository_printable {kind id : String} (h : extensionId id = true) :
    Printable (canonicalExtensionRepository kind id) ∧
      (chars (canonicalExtensionRepository kind id)).length ≤ 109 := by
  obtain ⟨hprint, -, hlength⟩ := extensionId_printable h
  have hpart : ∀ s : String, (chars s).all printable = true → (chars s).length ≤ 46 →
      Printable (s ++ id) ∧ (chars (s ++ id)).length ≤ 109 := by
    intro s hs hn
    refine ⟨(printable_text hs).append hprint, ?_⟩
    rw [length_append]
    omega
  unfold canonicalExtensionRepository
  rw [h]
  simp only [Bool.not_true, Bool.false_eq_true, if_false]
  split
  · exact hpart _ (by decide) (by decide)
  split
  · split
    · exact hpart _ (by decide) (by decide)
    · exact hpart _ (by decide) (by decide)
  · exact ⟨nofun, Nat.zero_le _⟩

theorem Offered.image (h : Offered pkg) :
    Printable (packageImage pkg) ∧ (chars (packageImage pkg)).length ≤ 181 := by
  obtain ⟨hdigest, hlength, -⟩ := digestFormat_printable h.digest
  have hcanonical : Printable (nestedString pkg.content ["spec", "image", "repository"]) ∧
      (chars (nestedString pkg.content ["spec", "image", "repository"])).length ≤ 109 := by
    rw [h.repository]
    exact canonicalExtensionRepository_printable h.id
  obtain ⟨hrepository, hbound⟩ := hcanonical
  refine ⟨(hrepository.append (printable_text (by decide))).append hdigest, ?_⟩
  have hat : (chars "@").length = 1 := by decide
  rw [packageImage, length_append, length_append, hat, hlength]
  omega

theorem Offered.image_pattern (h : Offered pkg) : Pattern.full imagePattern (packageImage pkg) = true := by
  have hformat := h.format
  rw [repositoryFormat, Pattern.full, Pattern.seq_cons, Pattern.text_iff] at hformat
  obtain ⟨_, hchars, hformat⟩ := hformat
  rw [Pattern.seq_cons, Pattern.times_iff] at hformat
  obtain ⟨c, _, rfl, hc, hone, hformat⟩ := hformat
  rw [Pattern.seq_cons, Pattern.repeated_iff] at hformat
  obtain ⟨t, _, rfl, ht, -, -, hend⟩ := hformat
  obtain rfl := List.isEmpty_iff.mp hend
  obtain ⟨d, hd, hmanifest⟩ := digestFormat_iff.mp h.digest
  obtain ⟨hhex, hlength⟩ := manifestFormat_iff.mp hmanifest
  have himage : chars (packageImage pkg) = chars "ghcr.io/opensphere-platform/" ++
      (c ++ (t ++ (chars "@sha256:" ++ chars d))) := by
    rw [packageImage, hd, chars_append, chars_append, chars_append, hchars, List.append_nil]
    have hat : chars "@" ++ chars "sha256:" = chars "@sha256:" := by decide
    simp only [List.append_assoc, ← hat]
  rw [imagePattern, Pattern.full, himage, Pattern.seq_cons, Pattern.text_iff]
  refine ⟨_, rfl, ?_⟩
  rw [Pattern.seq_cons, Pattern.times_iff]
  refine ⟨c, _, rfl, hc, hone, ?_⟩
  rw [Pattern.seq_cons, Pattern.repeated_iff]
  refine ⟨t, _, rfl, ht, Nat.zero_le _, by simp, ?_⟩
  rw [Pattern.seq_cons, Pattern.text_iff]
  refine ⟨_, rfl, ?_⟩
  rw [Pattern.seq_cons, Pattern.times_iff]
  exact ⟨chars d, [], (List.append_nil _).symm, hhex, hlength, rfl⟩

theorem texts_eq_some {values : List Value} {ts : List String} (h : texts values = some ts) :
    values = ts.map .string := by
  induction values generalizing ts with
  | nil =>
      obtain rfl := Option.some.inj h
      rfl
  | cons x values ih =>
      cases x with
      | string s =>
          obtain ⟨us, hus, rfl⟩ := Option.map_eq_some_iff.mp h
          rw [ih hus]
          rfl
      | _ => cases h

theorem texts_map (ts : List String) : texts (ts.map .string) = some ts := by
  induction ts with
  | nil => rfl
  | cons t ts ih => rw [List.map_cons, texts, ih, Option.map_some]

theorem canonical_texts (ts : List String) :
    (Value.array (.ofList (ts.map .string))).canonical = .array (.ofList (ts.map .string)) := by
  have hvalues : (Values.ofList (ts.map .string)).canonical = Values.ofList (ts.map .string) := by
    induction ts with
    | nil => rfl
    | cons t ts ih =>
        rw [List.map_cons, Values.ofList, Values.canonical, ih]
        rfl
  rw [Value.canonical, hvalues]

/-- The evidence references of an image are printable texts of a bounded length. -/
theorem Offered.reference (h : Offered pkg)
    (ht : t ∈ localEdgeEvidenceRefs (packageImage pkg)) : Js.test evidencePattern t = true := by
  obtain ⟨himage, hlength⟩ := h.image
  have hpart : ∀ s : String, (chars s).all printable = true → (chars s).length ≤ 300 →
      Js.test evidencePattern ("oci:" ++ packageImage pkg ++ s) = true := by
    intro s hs hbound
    have hprint : Printable ("oci:" ++ packageImage pkg ++ s) :=
      ((printable_text (by decide)).append himage).append (printable_text hs)
    have hoci : (chars "oci:").length = 4 := by decide
    rw [hprint.test, evidencePattern, Pattern.full_repeated]
    refine ⟨fun c hc => ?_, ?_, fun n hn => ?_⟩
    · have hprintable := hprint c hc
      simp only [printable, Bool.and_eq_true, decide_eq_true_eq] at hprintable
      simp only [control, Bool.not_eq_true', Bool.or_eq_false_iff, decide_eq_false_iff_not,
        beq_eq_false_iff_ne]
      omega
    · rw [length_append, length_append, hoci]
      omega
    · obtain rfl := Option.some.inj hn
      rw [length_append, length_append, hoci]
      omega
  rcases List.mem_pair.mp ht with rfl | rfl
  · exact hpart _ (by decide) (by decide)
  · exact hpart _ (by decide) (by decide)

theorem localEdgeEvidenceRefs_ne (image : String) :
    "oci:" ++ image ++ "#p256-module-signature" ≠ "oci:" ++ image ++ "#local-edge-build-metadata" := by
  intro heq
  exact absurd ((String.append_right_inj _).mp heq) (by decide)

/-- The evidence that the Registry asks for is the one that the client expects. -/
theorem Offered.evidence_expected (h : Offered pkg) :
    evidenceExpected (Value.array (.ofList (nestedSlice pkg.content
      ["spec", "resolution", "evidenceRefs"]))).canonical (packageImage pkg) = true := by
  have hevidence := h.evidence
  unfold hasExactLocalEdgeEvidence at hevidence
  split at hevidence
  · rename_i ts hts
    simp only [Bool.and_eq_true, beq_iff_eq, decide_eq_true_eq, List.all_eq_true] at hevidence
    obtain ⟨⟨hlength, hnodup⟩, hall⟩ := hevidence
    have hfirst := List.contains_iff_mem.mp (hall _ (List.mem_cons_self ..))
    have hsecond := List.contains_iff_mem.mp (hall _ (List.mem_cons_of_mem _ (List.mem_singleton_self _)))
    -- two different references are all that two places hold
    have hmem : ∀ t ∈ ts, t ∈ localEdgeEvidenceRefs (packageImage pkg) := by
      obtain ⟨x, y, rfl⟩ := List.length_eq_two.mp hlength
      have hne := localEdgeEvidenceRefs_ne (packageImage pkg)
      intro t ht
      rcases List.mem_pair.mp hfirst with h1 | h1 <;> rcases List.mem_pair.mp hsecond with h2 | h2
      · exact absurd (h1.trans h2.symm) hne
      · rcases List.mem_pair.mp ht with rfl | rfl
        · exact List.mem_pair.mpr (.inl h1.symm)
        · exact List.mem_pair.mpr (.inr h2.symm)
      · rcases List.mem_pair.mp ht with rfl | rfl
        · exact List.mem_pair.mpr (.inr h2.symm)
        · exact List.mem_pair.mpr (.inl h1.symm)
      · exact absurd (h1.trans h2.symm) hne
    rw [texts_eq_some hts, canonical_texts, evidenceExpected, toList_ofList]
    simp only [texts_map, Bool.and_eq_true, beq_iff_eq, List.all_eq_true, List.contains_iff_mem]
    refine ⟨⟨hlength, fun t ht => ⟨h.reference (hmem t ht), hmem t ht⟩⟩, ?_⟩
    rw [hnodup.dedup]
    exact hlength
  · cases hevidence

def eligible (c : ExtensionCandidate) (revision : String) : ResolveResponse :=
  ⟨"Eligible", revision, some (c.answer revision), "", ""⟩

theorem test_text (h : Printable s) {r : Pattern} (hr : r.full s = true) :
    tests r (.string s) = true := by
  rw [tests, Value.toText, Option.any_some, h.test, hr]

theorem lengthWithin_string (h : s ≠ "") (n : Nat) :
    lengthWithin (.string s) 1 n = decide (Js.length s ≤ n) := by
  have hpos : 0 < Js.length s := by
    rw [Js.length_pos_iff, textLength]
    have hne : chars s ≠ [] := by
      intro hnil
      exact h (Js.chars_injective hnil)
    exact Int.natCast_pos.mpr (List.length_pos_of_ne_nil hne)
  unfold lengthWithin
  rw [decide_eq_decide]
  exact ⟨fun h => h.2, fun h => ⟨hpos, h⟩⟩

theorem isText_self (s : String) : isText (.string s) s = true := beq_self_eq_true s

theorem drop_extension (id : String) :
    String.ofList ((chars ("extension." ++ id)).drop (chars "extension.").length) = id := by
  apply Js.chars_injective
  rw [chars_ofList, chars_append, List.drop_left]

theorem sourceRevision_printable (h : sourceRevisionFormat t = true) : Printable t := by
  have hwithin : Pattern.Within printable (.times hexLower 40) :=
    Pattern.within_repeated (fun _ => printable_hexLower) _ _
  exact hwithin.full h

theorem compatibilityVersion_printable (h : compatibilityVersionFormat t = true) :
    Printable t := by
  have hdigits : Pattern.Within printable (.repeated digit 1 none) :=
    Pattern.within_repeated (fun _ => printable_digit) _ _
  have hdot : Pattern.Within printable (.text ".") :=
    Pattern.within_text (List.all_eq_true.mp (by decide))
  refine Pattern.Within.full (Pattern.within_seq fun r hr => ?_) h
  simp only [List.mem_cons, List.not_mem_nil, or_false] at hr
  rcases hr with rfl | rfl | rfl | rfl | rfl
  · exact hdigits
  · exact hdot
  · exact hdigits
  · exact hdot
  · exact hdigits

/-- The supply chain of an answer is what the client asks for, up to lengths. -/
theorem Offered.supply (h : Offered pkg) (revision : String) :
    (isText (((candidateOf pkg).answer revision).get "channel") "edge" &&
      isText (((candidateOf pkg).answer revision).get "buildAuthority") "localhost" &&
      tests (.times hexLower 40) (((candidateOf pkg).answer revision).get "sourceRevision") &&
      tests revisionPattern (((candidateOf pkg).answer revision).get "manifestDigest") &&
      tests semverPattern (((candidateOf pkg).answer revision).get "compatibilityVersion") &&
      lengthWithin (((candidateOf pkg).answer revision).get "keyId") 1 256 &&
      lengthWithin (((candidateOf pkg).answer revision).get "packageResourceVersion") 1 128 &&
      (safeInteger (((candidateOf pkg).answer revision).get "packageGeneration")).any
        fun n => decide (1 ≤ n)) = true ↔
      Js.length (nestedString pkg.content ["spec", "trust", "keyId"]) ≤ 256 ∧
        Js.length pkg.resourceVersion ≤ 128 ∧ pkg.generation ≤ Js.maxSafeInteger := by
  have hchannel : isText (((candidateOf pkg).answer revision).get "channel") "edge" = true := by
    show isText (.string (nestedString pkg.content ["spec", "resolution", "requestedChannel"])) _ = true
    rw [h.channel]
    exact isText_self _
  have hauthority :
      isText (((candidateOf pkg).answer revision).get "buildAuthority") "localhost" = true := by
    show isText (.string (nestedString pkg.content ["spec", "resolution", "buildAuthority"])) _ = true
    rw [h.authority]
    exact isText_self _
  have hsource : tests (.times hexLower 40) (((candidateOf pkg).answer revision).get "sourceRevision") =
      true := test_text (sourceRevision_printable h.source) h.source
  have hmanifest : tests revisionPattern (((candidateOf pkg).answer revision).get "manifestDigest") =
      true := by
    refine test_text ((printable_text (by decide)).append (manifestFormat_printable h.manifest)) ?_
    rw [revisionPattern, full_text_append]
    exact h.manifest
  have hversion : tests semverPattern (((candidateOf pkg).answer revision).get "compatibilityVersion") =
      true := test_text (compatibilityVersion_printable h.compatibility) h.compatibility
  have hgeneration : ((safeInteger (((candidateOf pkg).answer revision).get "packageGeneration")).any
      fun n => decide (1 ≤ n)) = decide (pkg.generation ≤ Js.maxSafeInteger) := by
    show ((safeInteger (integer pkg.generation)).any fun n => decide (1 ≤ n)) = _
    have hpos := h.generation
    rw [safeInteger_integer]
    by_cases hmax : pkg.generation ≤ Js.maxSafeInteger
    · have hlow : -Js.maxSafeInteger ≤ pkg.generation := by
        unfold Js.maxSafeInteger
        omega
      simp [hmax, hlow, hpos]
    · simp [hmax]
  have hkey : lengthWithin (((candidateOf pkg).answer revision).get "keyId") 1 256 =
      decide (Js.length (nestedString pkg.content ["spec", "trust", "keyId"]) ≤ 256) :=
    lengthWithin_string h.key 256
  have hresource : lengthWithin (((candidateOf pkg).answer revision).get "packageResourceVersion") 1 128 =
      decide (Js.length pkg.resourceVersion ≤ 128) := lengthWithin_string h.version 128
  rw [hchannel, hauthority, hsource, hmanifest, hversion, hgeneration, hkey, hresource]
  simp only [Bool.true_and, Bool.and_eq_true, decide_eq_true_eq, and_assoc]

/-- The client takes the answer for a candidate whose key and versions are within its limits. -/
theorem validateEligible_answer (h : Offered pkg) (revision : String) :
    Accepted (validateEligible (eligible (candidateOf pkg) revision).json ("extension." ++ pkg.name)
      revision) ↔
        Js.length (nestedString pkg.content ["spec", "trust", "keyId"]) ≤ 256 ∧
          Js.length pkg.resourceVersion ≤ 128 ∧ pkg.generation ≤ Js.maxSafeInteger := by
  have hdocument : Accepted (exactObject (eligible (candidateOf pkg) revision).json
      ["result", "revision", "candidate"] "Registry resolution") := ⟨(), rfl⟩
  have hresult : (isText ((eligible (candidateOf pkg) revision).json.get "result") "Eligible" &&
      isText ((eligible (candidateOf pkg) revision).json.get "revision") revision) = true :=
    Bool.and_eq_true_iff.mpr ⟨isText_self _, isText_self _⟩
  have hcandidate : (eligible (candidateOf pkg) revision).json.get "candidate" =
      (candidateOf pkg).answer revision := rfl
  have hfields : Accepted (exactObject ((candidateOf pkg).answer revision) ["kind", "descriptorId", "id",
      "image", "digest", "channel", "catalogRevision", "descriptorRevision", "executionRevision",
      "sourceRevision", "manifestDigest", "compatibilityVersion", "buildAuthority", "keyId",
      "evidenceRefs", "packageResourceVersion", "packageGeneration", "verification"]
      "Registry candidate") := ⟨(), rfl⟩
  have hidentity : (isText (((candidateOf pkg).answer revision).get "kind") "extension" &&
      isText (((candidateOf pkg).answer revision).get "descriptorId") ("extension." ++ pkg.name) &&
      isText (((candidateOf pkg).answer revision).get "id") pkg.name) = true := by
    rw [Bool.and_eq_true_iff, Bool.and_eq_true_iff]
    exact ⟨⟨isText_self _, isText_self _⟩, isText_self _⟩
  have himage : ((candidateOf pkg).answer revision).get "image" = .string (packageImage pkg) := rfl
  have hexecution : (tests imagePattern (.string (packageImage pkg)) &&
      isText (((candidateOf pkg).answer revision).get "executionRevision") (packageImage pkg)) = true := by
    rw [Bool.and_eq_true_iff]
    exact ⟨test_text h.image.1 h.image_pattern, isText_self _⟩
  have hbinding : (isText (((candidateOf pkg).answer revision).get "digest") (afterAt (packageImage pkg)) &&
      isText (((candidateOf pkg).answer revision).get "catalogRevision") revision &&
      isText (((candidateOf pkg).answer revision).get "descriptorRevision") revision) = true := by
    rw [packageImage, afterAt_image (digestFormat_printable h.digest).2.2, Bool.and_eq_true_iff,
      Bool.and_eq_true_iff]
    exact ⟨⟨isText_self _, isText_self _⟩, isText_self _⟩
  have hevidence : evidenceExpected (((candidateOf pkg).answer revision).get "evidenceRefs")
      (packageImage pkg) = true := h.evidence_expected
  unfold validateEligible
  rw [accepted_bind_const, and_iff_right hdocument, accepted_bind_const, accepted_require,
    and_iff_right hresult]
  simp only [hcandidate, himage, drop_extension]
  rw [accepted_bind_const, and_iff_right hfields, accepted_bind_const, accepted_require,
    and_iff_right hidentity, accepted_bind_const, accepted_require, and_iff_right hexecution,
    accepted_bind_const, accepted_require, and_iff_right hbinding, accepted_bind_const,
    accepted_require, h.supply, accepted_bind_const, accepted_require, and_iff_right hevidence]
  refine and_iff_left ?_
  exact accepted_bind_const.mpr ⟨⟨(), rfl⟩, accepted_bind_const.mpr ⟨⟨(), rfl⟩, accepted_pure _⟩⟩

end

end Catalog
