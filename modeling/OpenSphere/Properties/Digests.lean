import OpenSphere.Domain.Receipt
import OpenSphere.Js.Parse

/-!
# Canonical payloads

The canonical text of a value is the text of the sorted value, so it is one for values that are
equal up to the order of members, and it is read as such a value.  With a hash that does not take
two canonical texts to one digest, the digest stands for the payload up to that order.
-/

open Js (Tree Utf16 Double literal)
open Js.Tree (Plain Similar byKey commas memberText parse)

namespace Domain

/-! ## Canonical text -/

theorem canonicalAll_eq (xs : List Tree) : canonicalAll xs = xs.map canonical := by
  induction xs with
  | nil => rfl
  | cons x xs ih => rw [canonicalAll, ih, List.map_cons]

theorem canonicalMembers_eq (ms : List (Utf16 × Tree)) :
    canonicalMembers ms = ms.map fun m => (m.1, canonical m.2) := by
  induction ms with
  | nil => rfl
  | cons m ms ih => rw [canonicalMembers, ih, List.map_cons]

theorem canonical_eq (x : Tree) : canonical x = x.sorted.stringify := by
  induction x using Tree.recursion with
  | array xs ih =>
      have hall : xs.map canonical = (xs.map Tree.sorted).map Tree.stringify := by
        rw [List.map_map]
        exact List.map_congr_left ih
      rw [canonical, canonicalAll_eq, hall, Tree.sorted, Tree.stringify, Tree.stringifyAll_eq,
        Tree.sortedAll_eq]
  | object ms ih =>
      have hmembers : canonicalMembers ms =
          (Tree.sortedMembers ms).map fun m => (m.1, m.2.stringify) := by
        rw [canonicalMembers_eq, Tree.sortedMembers_eq, List.map_map]
        exact List.map_congr_left fun m hm => congrArg (m.1, ·) (ih m hm)
      rw [canonical, hmembers, Tree.byKey_map, List.map_map, Tree.sorted, Tree.stringify,
        Tree.stringifyMembers_eq]
      rfl
  | _ => rfl

/-- The canonical text is read as a value that is equal up to the order of members. -/
theorem parse_canonical {x : Tree} (h : Plain x) :
    parse (canonical x) = some x.sorted ∧ Similar x x.sorted := by
  refine ⟨?_, Tree.similar_sorted h⟩
  rw [canonical_eq]
  exact Tree.parse_stringify (Tree.plain_sorted h)

/-- Two values have one canonical text exactly when they are equal up to the order of members. -/
theorem canonical_eq_iff {x y : Tree} (hx : Plain x) (hy : Plain y) :
    canonical x = canonical y ↔ Similar x y := by
  rw [Tree.similar_iff hx hy]
  constructor
  · intro h
    have hparse := (parse_canonical hx).1
    rw [h, (parse_canonical hy).1, Option.some.injEq] at hparse
    exact hparse.symm
  · intro h
    rw [canonical_eq, canonical_eq, h]

/-! ## Digests -/

theorem hex_injective : ∀ {as bs : List UInt8}, hex as = hex bs → as = bs
  | [], [] => fun _ => rfl
  | [], _ :: _ => fun h => absurd h.symm (List.cons_ne_nil _ _)
  | _ :: _, [] => fun h => absurd h (List.cons_ne_nil _ _)
  | a :: as, b :: bs => fun h => by
      have ha := a.toNat_lt
      have hb := b.toNat_lt
      simp only [hex, List.flatMap_cons, List.cons_append, List.nil_append, List.cons.injEq] at h
      obtain ⟨hhigh, hlow, hrest⟩ := h
      have hhigh' := Sql.digitChar_injective (by omega) (by omega) hhigh
      have hlow' := Sql.digitChar_injective (by omega) (by omega) hlow
      rw [UInt8.toNat_inj.mp (show a.toNat = b.toNat by omega), hex_injective hrest]

theorem payloadOctets_eq_iff {x y : Tree} :
    payloadOctets x = payloadOctets y ↔ canonical x = canonical y := by
  constructor
  · intro h
    have hdecode := congrArg Codec.Utf8.decode h
    rwa [payloadOctets, payloadOctets, Codec.Utf8.decode_encode, Codec.Utf8.decode_encode] at hdecode
  · exact congrArg Codec.Utf8.encode

theorem payloadDigest_eq_iff {sha256 : List UInt8 → List UInt8} {x y : Tree}
    (hcollision : sha256 (payloadOctets x) = sha256 (payloadOctets y) →
      payloadOctets x = payloadOctets y) :
    payloadDigest sha256 x = payloadDigest sha256 y ↔ canonical x = canonical y := by
  rw [← payloadOctets_eq_iff]
  constructor
  · intro h
    exact hcollision (hex_injective (List.append_cancel_left h))
  · intro h
    rw [payloadDigest, payloadDigest, h]

abbrev Payload := { x : Tree // Plain x }

/-- The canonical text stands for a payload up to the order of members, is read as such a
payload, and so does the digest where the hash does not collide. -/
theorem payload_identified {sha256 : List UInt8 → List UInt8} (x y : Payload)
    (hcollision : sha256 (payloadOctets x.1) = sha256 (payloadOctets y.1) →
      payloadOctets x.1 = payloadOctets y.1) :
    (canonical x.1 = canonical y.1 ↔ Similar x.1 y.1) ∧
      (∃ z, parse (canonical x.1) = some z ∧ Plain z ∧ Similar x.1 z) ∧
      (payloadDigest sha256 x.1 = payloadDigest sha256 y.1 ↔ Similar x.1 y.1) := by
  have hiff := canonical_eq_iff x.2 y.2
  obtain ⟨hparse, hsimilar⟩ := parse_canonical x.2
  exact ⟨hiff, ⟨x.1.sorted, hparse, Tree.plain_sorted x.2, hsimilar⟩,
    (payloadDigest_eq_iff hcollision).trans hiff⟩

namespace Demo

/-- `{ b: 2, a: 1 }`. -/
def second : Tree := .object [(literal "b", .number (.finite (Double.ofInt 2 (by decide)))),
  (literal "a", .number (.finite (Double.ofInt 1 (by decide))))]

/-- `{ a: 1, b: 2 }`. -/
def first : Tree := .object [(literal "a", .number (.finite (Double.ofInt 1 (by decide)))),
  (literal "b", .number (.finite (Double.ofInt 2 (by decide))))]

theorem plain_second : Plain second := by
  refine .object (by decide) ?_
  intro m hm
  simp only [List.mem_cons, List.not_mem_nil, or_false] at hm
  rcases hm with rfl | rfl <;> exact .number _

theorem plain_first : Plain first := by
  refine .object (by decide) ?_
  intro m hm
  simp only [List.mem_cons, List.not_mem_nil, or_false] at hm
  rcases hm with rfl | rfl <;> exact .number _

def sha256 (bs : List UInt8) : List UInt8 :=
  if bs = Codec.Utf8.encode (Sql.chars "\x7b\"a\":1,\"b\":2\x7d") then
    [67, 37, 140, 255, 120, 63, 231, 3, 109, 138, 67, 3, 63, 131, 10, 223, 198, 14, 192, 55, 56, 36,
      115, 84, 138, 199, 66, 184, 136, 41, 39, 119]
  else []

end Demo

theorem payload_identified_reordered :
    payloadDigest Demo.sha256 Demo.first = payloadDigest Demo.sha256 Demo.second := by
  have hsimilar : Similar Demo.first Demo.second := by
    refine .object ?_ ?_
    · intro k
      simp [Tree.keys, or_comm]
    · intro k x y hx hy
      simp only [List.mem_cons, List.not_mem_nil, or_false, Prod.mk.injEq] at hx hy
      rcases hx with ⟨rfl, rfl⟩ | ⟨rfl, rfl⟩ <;> rcases hy with ⟨hk, rfl⟩ | ⟨hk, rfl⟩ <;>
        first | exact .refl _ | exact absurd hk (by decide)
  have hcanonical := (canonical_eq_iff Demo.plain_first Demo.plain_second).mpr hsimilar
  have hcollision : Demo.sha256 (payloadOctets Demo.first) = Demo.sha256 (payloadOctets Demo.second) →
      payloadOctets Demo.first = payloadOctets Demo.second := fun _ => payloadOctets_eq_iff.mpr hcanonical
  have hidentified := payload_identified ⟨_, Demo.plain_first⟩ ⟨_, Demo.plain_second⟩ hcollision
  exact hidentified.2.2.mpr hsimilar

end Domain
