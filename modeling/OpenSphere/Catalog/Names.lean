import Mathlib.Data.List.DropRight
import OpenSphere.Identity.Schema
import OpenSphere.Sql.Match

/-!
# Names of releases

Each release of an extension has a Service of its own, and three components know its name: the
Registry computes it for the release before the current one, the extension controller when it
deploys a release, and the resolver of command providers checks the one it is given.

An extension id has only letters, digits and hyphens, so the octets of the one language and the
code units of the other are the characters of the id.
-/

open Sql
open ConsoleIdentity (Bytes encodeHex)

namespace Catalog

structure Hash where
  sha256 : String → Bytes
  octets : ∀ t, (sha256 t).length = 32

def alphanumeric (c : Char) : Bool := lower c || digit c

/-- `[a-z0-9-]`. -/
def labelChar : Char → Bool := orOneOf alphanumeric ['-']

/-- `extensionIDRE`. -/
def extensionId : String → Bool :=
  Pattern.full (.seq [.times alphanumeric 1, .repeated labelChar 0 (some 62)])

/-- `digestRE`. -/
def digestFormat : String → Bool := Pattern.full (.seq [.text "sha256:", .times hexLower 64])

/-- `manifestRE`. -/
def manifestFormat : String → Bool := Pattern.full (.times hexLower 64)

def dnsLabel : String → Bool :=
  Pattern.full (.seq [.times alphanumeric 1,
    .opt (.seq [.repeated labelChar 0 (some 61), .times alphanumeric 1])])

def releaseText (id digest manifestDigest : String) : String :=
  id ++ "\n" ++ digest ++ "\n" ++ manifestDigest

/-- The first twenty hexadecimal digits of the hash. -/
def releaseToken (h : Hash) (id digest manifestDigest : String) : List Char :=
  (chars (encodeHex (h.sha256 (releaseText id digest manifestDigest)))).take 20

/-- `releaseServiceID(id, digest, manifestDigest)` of the Registry. -/
def releaseServiceID (h : Hash) (id digest manifestDigest : String) : String :=
  let token := releaseToken h id digest manifestDigest
  let maxPrefix := 63 - (chars "-r-").length - token.length
  let front := ((chars id).take (min (chars id).length maxPrefix)).rdropWhile (· == '-')
  String.ofList (front ++ chars "-r-" ++ token)

/-- `revisionName(name, token)` of the extension controller. -/
def revisionName (name : String) (token : List Char) : String :=
  let maximumPrefix := 63 - 3 - token.length
  let front := ((chars name).take maximumPrefix).rdropWhile (· == '-')
  String.ofList (front ++ chars "-r-" ++ token)

/-- `revisionResourceName` of `buildExtensionWorkloadPlan`. -/
def revisionResourceName (h : Hash) (name imageDigest manifestSha256 : String) : String :=
  revisionName name (releaseToken h name imageDigest manifestSha256)

/-- The resolver of command providers takes the Service of a plugin with an id that it admits. -/
def providerService (id artifactServiceId : String) : Bool :=
  extensionId id &&
    Pattern.full (.seq [.text id, .text "-r-", .times hexLower 20]) artifactServiceId

/-! ## Facts about the names -/

section

variable {h : Hash} {id digest manifest : String}

theorem extensionId_iff {id : String} :
    extensionId id = true ↔ ∃ c t, chars id = c :: t ∧ alphanumeric c = true ∧
      (∀ d ∈ t, labelChar d = true) ∧ t.length ≤ 62 := by
  rw [extensionId, Pattern.full, Pattern.seq_cons, Pattern.times_iff]
  simp only [Pattern.seq_cons, Pattern.seq_nil, Pattern.repeated_iff, List.isEmpty_iff]
  constructor
  · rintro ⟨a, rest, heq, ha, hlength, t, _, rfl, ht, -, hhi, rfl⟩
    obtain ⟨c, rfl⟩ := List.length_eq_one_iff.mp hlength
    refine ⟨c, t, ?_, ha c (List.mem_singleton_self c), ht, hhi 62 rfl⟩
    rw [heq, List.append_nil]
    rfl
  · rintro ⟨c, t, heq, hc, ht, hlength⟩
    refine ⟨[c], t, heq, ?_, rfl, t, [], (List.append_nil t).symm, ht, Nat.zero_le _, ?_, rfl⟩
    · rintro d hd
      rwa [List.mem_singleton.mp hd]
    · rintro n ⟨⟩
      exact hlength

theorem releaseToken_length : (releaseToken h id digest manifest).length = 20 := by
  rw [releaseToken, List.length_take, encodeHex, chars_ofList, List.length_flatMap]
  simp [h.octets]

theorem releaseToken_hex : ∀ c ∈ releaseToken h id digest manifest, hexLower c = true := by
  intro c hc
  have hmem := List.mem_of_mem_take hc
  rw [encodeHex, chars_ofList, List.mem_flatMap] at hmem
  obtain ⟨b, -, hb⟩ := hmem
  rcases List.mem_pair.mp hb with rfl | rfl
  · exact hexLower_digitChar (Nat.div_lt_of_lt_mul b.toNat_lt)
  · exact hexLower_digitChar (Nat.mod_lt _ (by decide))

/-- The part of a name before its token. -/
def releasePrefix (id : String) : List Char := ((chars id).take 40).rdropWhile (· == '-')

theorem releaseServiceID_eq :
    releaseServiceID h id digest manifest =
      String.ofList (releasePrefix id ++ chars "-r-" ++ releaseToken h id digest manifest) := by
  have hdash : (chars "-r-").length = 3 := by decide
  have hmin : (chars id).take (min (chars id).length 40) = (chars id).take 40 := by
    rw [Nat.min_comm, ← List.take_take, List.take_length]
  rw [releaseServiceID]
  simp only [releaseToken_length, hdash, hmin, releasePrefix]

theorem revisionResourceName_eq :
    revisionResourceName h id digest manifest =
      String.ofList (releasePrefix id ++ chars "-r-" ++ releaseToken h id digest manifest) := by
  rw [revisionResourceName, revisionName]
  simp only [releaseToken_length, releasePrefix]

end

end Catalog
