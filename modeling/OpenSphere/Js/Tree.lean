import Mathlib.Data.Fin.Basic
import Mathlib.Data.List.Lex
import Mathlib.Data.List.Nodup
import Mathlib.Data.List.Sort
import OpenSphere.Js.Numeral
import OpenSphere.Js.Utf16

/-!
# JSON values

The values that JSON text can have, with texts of code units and numbers of double precision.
An object has its members in the order of their definition; array indices, which the language
enumerates before other keys, are not set apart.

Two values are similar if they are equal up to the order of members at every depth, and the
sorted value is the one of them whose keys are in order (`similar_iff`).
-/

open Sql (chars)

namespace Js

inductive Tree where
  | null
  | boolean (b : Bool)
  | number (x : Number)
  | string (s : Utf16)
  | array (xs : List Tree)
  | object (ms : List (Utf16 × Tree))

namespace Tree

def keys {α : Type} (ms : List (Utf16 × α)) : List Utf16 := ms.map Prod.fst

/-- A value that JSON can express: its numbers are finite, and no key of an object is there
twice. -/
inductive Plain : Tree → Prop where
  | null : Plain .null
  | boolean (b : Bool) : Plain (.boolean b)
  | number (x : Double) : Plain (.number (.finite x))
  | string (s : Utf16) : Plain (.string s)
  | array {xs : List Tree} : (∀ x ∈ xs, Plain x) → Plain (.array xs)
  | object {ms : List (Utf16 × Tree)} :
      (keys ms).Nodup → (∀ m ∈ ms, Plain m.2) → Plain (.object ms)

/-- Values that are equal up to the order of members at every depth. -/
inductive Similar : Tree → Tree → Prop where
  | refl (x : Tree) : Similar x x
  | array {xs ys : List Tree} : xs.length = ys.length →
      (∀ p ∈ xs.zip ys, Similar p.1 p.2) → Similar (.array xs) (.array ys)
  | object {ms ns : List (Utf16 × Tree)} : (∀ k, k ∈ keys ms ↔ k ∈ keys ns) →
      (∀ k x y, (k, x) ∈ ms → (k, y) ∈ ns → Similar x y) → Similar (.object ms) (.object ns)

/-! ## Text -/

def commas : List (List Char) → List Char
  | [] => []
  | [t] => t
  | t :: ts => t ++ ',' :: commas ts

def memberText (k : Utf16) (t : List Char) : List Char := quoteText k ++ ':' :: t

mutual

/-- `JSON.stringify(x)`. -/
def stringify : Tree → List Char
  | .null => chars "null"
  | .boolean true => chars "true"
  | .boolean false => chars "false"
  | .number (.finite x) => x.text
  | .number (.infinite _) => chars "null"
  | .string s => quoteText s
  | .array xs => '[' :: (commas (stringifyAll xs) ++ [']'])
  | .object ms => '\x7b' :: (commas (stringifyMembers ms) ++ ['\x7d'])

def stringifyAll : List Tree → List (List Char)
  | [] => []
  | x :: xs => x.stringify :: stringifyAll xs

def stringifyMembers : List (Utf16 × Tree) → List (List Char)
  | [] => []
  | (k, x) :: ms => memberText k x.stringify :: stringifyMembers ms

end

/-! ## Sorted values -/

def byKey {α : Type} (ms : List (Utf16 × α)) : List (Utf16 × α) :=
  ms.mergeSort fun a b => decide (a.1 ≤ b.1)

mutual

/-- The value with the members of every object in the order of their keys. -/
def sorted : Tree → Tree
  | .array xs => .array (sortedAll xs)
  | .object ms => .object (byKey (sortedMembers ms))
  | x => x

def sortedAll : List Tree → List Tree
  | [] => []
  | x :: xs => x.sorted :: sortedAll xs

def sortedMembers : List (Utf16 × Tree) → List (Utf16 × Tree)
  | [] => []
  | (k, x) :: ms => (k, x.sorted) :: sortedMembers ms

end

/-! ## Induction -/

section

variable {P : Tree → Prop} (null : P .null) (boolean : ∀ b, P (.boolean b))
  (number : ∀ x, P (.number x)) (string : ∀ s, P (.string s))
  (array : ∀ xs, (∀ x ∈ xs, P x) → P (.array xs))
  (object : ∀ ms, (∀ m ∈ ms, P m.2) → P (.object ms))

include null boolean number string array object

mutual

/-- Induction over values, with the hypothesis for every element and member. -/
theorem recursion : ∀ t, P t
  | .null => null
  | .boolean b => boolean b
  | .number x => number x
  | .string s => string s
  | .array xs => array xs (recursionAll xs)
  | .object ms => object ms (recursionMembers ms)

theorem recursionAll : ∀ xs : List Tree, ∀ x ∈ xs, P x
  | [] => fun _ h => nomatch h
  | x :: xs => List.forall_mem_cons.mpr ⟨recursion x, recursionAll xs⟩

theorem recursionMembers : ∀ ms : List (Utf16 × Tree), ∀ m ∈ ms, P m.2
  | [] => fun _ h => nomatch h
  | (_, x) :: ms => List.forall_mem_cons.mpr ⟨recursion x, recursionMembers ms⟩

end

end

theorem stringifyAll_eq : ∀ xs : List Tree, stringifyAll xs = xs.map stringify
  | [] => rfl
  | x :: xs => by rw [stringifyAll, stringifyAll_eq xs, List.map_cons]

theorem stringifyMembers_eq : ∀ ms : List (Utf16 × Tree),
    stringifyMembers ms = ms.map fun m => memberText m.1 m.2.stringify
  | [] => rfl
  | (k, x) :: ms => by rw [stringifyMembers, stringifyMembers_eq ms, List.map_cons]

theorem sortedAll_eq : ∀ xs : List Tree, sortedAll xs = xs.map sorted
  | [] => rfl
  | x :: xs => by rw [sortedAll, sortedAll_eq xs, List.map_cons]

theorem sortedMembers_eq : ∀ ms : List (Utf16 × Tree),
    sortedMembers ms = ms.map fun m => (m.1, m.2.sorted)
  | [] => rfl
  | (k, x) :: ms => by rw [sortedMembers, sortedMembers_eq ms, List.map_cons]

/-! ## Order of members -/

section

variable {α β : Type} {ms ns : List (Utf16 × α)}

theorem byKey_perm (ms : List (Utf16 × α)) : (byKey ms).Perm ms := List.mergeSort_perm ..

theorem mem_byKey {m : Utf16 × α} : m ∈ byKey ms ↔ m ∈ ms := (byKey_perm ms).mem_iff

theorem eq_of_key (h : (keys ms).Nodup) {a b : Utf16 × α} (ha : a ∈ ms) (hb : b ∈ ms)
    (hkey : a.1 = b.1) : a = b := List.inj_on_of_nodup_map h ha hb hkey

theorem byKey_eq (h : (keys ms).Nodup) (hperm : ms.Perm ns) : byKey ms = byKey ns := by
  have htrans : ∀ a b c : Utf16 × α, decide (a.1 ≤ b.1) = true → decide (b.1 ≤ c.1) = true →
      decide (a.1 ≤ c.1) = true := by
    intro a b c hab hbc
    rw [decide_eq_true_eq] at *
    exact hab.trans hbc
  have htotal : ∀ a b : Utf16 × α, (decide (a.1 ≤ b.1) || decide (b.1 ≤ a.1)) = true := by
    intro a b
    rw [Bool.or_eq_true, decide_eq_true_eq, decide_eq_true_eq]
    exact le_total a.1 b.1
  refine List.Perm.eq_of_pairwise ?_ (List.pairwise_mergeSort htrans htotal ms)
    (List.pairwise_mergeSort htrans htotal ns) ?_
  · intro a b ha hb hab hba
    rw [decide_eq_true_eq] at hab hba
    exact eq_of_key h (mem_byKey.mp ha) (hperm.mem_iff.mpr (mem_byKey.mp hb)) (le_antisymm hab hba)
  · exact (byKey_perm ms).trans (hperm.trans (byKey_perm ns).symm)

theorem byKey_map (f : α → β) (ms : List (Utf16 × α)) :
    byKey (ms.map fun m => (m.1, f m.2)) = (byKey ms).map fun m => (m.1, f m.2) := by
  symm
  exact List.map_mergeSort fun _ _ _ _ => rfl

end

/-! ## Values up to the order of members -/

section

variable {x y : Tree} {ms ns : List (Utf16 × Tree)}

theorem mem_keys {α : Type} {ms : List (Utf16 × α)} {k : Utf16} :
    k ∈ keys ms ↔ ∃ x, (k, x) ∈ ms := by
  simp [keys]

theorem keys_sortedMembers (ms : List (Utf16 × Tree)) : keys (sortedMembers ms) = keys ms := by
  rw [sortedMembers_eq, keys, keys, List.map_map]
  rfl

theorem mem_sortedMembers {k : Utf16} :
    (k, x) ∈ sortedMembers ms ↔ ∃ y, (k, y) ∈ ms ∧ x = y.sorted := by
  rw [sortedMembers_eq, List.mem_map]
  constructor
  · rintro ⟨⟨k', y⟩, hm, heq⟩
    cases heq
    exact ⟨y, hm, rfl⟩
  · rintro ⟨y, hm, rfl⟩
    exact ⟨(k, y), hm, rfl⟩

theorem sortedMembers_perm (hms : (keys ms).Nodup) (hns : (keys ns).Nodup)
    (hkeys : ∀ k, k ∈ keys ms ↔ k ∈ keys ns)
    (hvalues : ∀ k x y, (k, x) ∈ ms → (k, y) ∈ ns → x.sorted = y.sorted) :
    (sortedMembers ms).Perm (sortedMembers ns) := by
  have hnodup : ∀ {ms : List (Utf16 × Tree)}, (keys ms).Nodup → (sortedMembers ms).Nodup := by
    intro ms h
    rw [← keys_sortedMembers] at h
    exact h.of_map
  rw [List.perm_ext_iff_of_nodup (hnodup hms) (hnodup hns)]
  rintro ⟨k, z⟩
  rw [mem_sortedMembers, mem_sortedMembers]
  constructor
  · rintro ⟨x, hx, rfl⟩
    obtain ⟨y, hy⟩ := mem_keys.mp ((hkeys k).mp (mem_keys.mpr ⟨x, hx⟩))
    exact ⟨y, hy, hvalues k x y hx hy⟩
  · rintro ⟨y, hy, rfl⟩
    obtain ⟨x, hx⟩ := mem_keys.mp ((hkeys k).mpr (mem_keys.mpr ⟨y, hy⟩))
    exact ⟨x, hx, (hvalues k x y hx hy).symm⟩

theorem Plain.elements {xs : List Tree} (h : Plain (.array xs)) : ∀ x ∈ xs, Plain x := by
  cases h with
  | array h => exact h

theorem Plain.nodup (h : Plain (.object ms)) : (keys ms).Nodup := by
  cases h with
  | object h _ => exact h

theorem Plain.members (h : Plain (.object ms)) : ∀ m ∈ ms, Plain m.2 := by
  cases h with
  | object _ h => exact h

theorem Similar.sorted_eq (h : Similar x y) (hx : Plain x) (hy : Plain y) :
    x.sorted = y.sorted := by
  induction h with
  | refl x => rfl
  | @array xs ys hlength _ ih =>
      rw [sorted, sorted, sortedAll_eq, sortedAll_eq]
      refine congrArg Tree.array (List.ext_getElem (by simp [hlength]) ?_)
      intro i hi hi'
      rw [List.length_map] at hi hi'
      rw [List.getElem_map, List.getElem_map]
      exact ih (xs[i], ys[i]) (List.mem_iff_getElem.mpr ⟨i, by simp [hi, hi'], by simp⟩)
        (hx.elements _ (List.getElem_mem hi)) (hy.elements _ (List.getElem_mem hi'))
  | @object ms ns hkeys _ ih =>
      rw [sorted, sorted]
      refine congrArg Tree.object (byKey_eq ?_ ?_)
      · rw [keys_sortedMembers]
        exact hx.nodup
      · refine sortedMembers_perm hx.nodup hy.nodup hkeys fun k x y hxm hym => ?_
        exact ih k x y hxm hym (hx.members _ hxm) (hy.members _ hym)

theorem similar_sorted (h : Plain x) : Similar x x.sorted := by
  induction h with
  | array _ ih =>
      rw [sorted, sortedAll_eq]
      refine .array (List.length_map _).symm ?_
      intro p hp
      obtain ⟨i, hi, rfl⟩ := List.mem_iff_getElem.mp hp
      rw [List.length_zip, List.length_map] at hi
      rw [List.getElem_zip, List.getElem_map]
      exact ih _ (List.getElem_mem (by omega))
  | @object ms hnodup _ ih =>
      rw [sorted]
      refine .object ?_ ?_
      · intro k
        have hperm := (byKey_perm (sortedMembers ms)).map Prod.fst
        rw [← keys_sortedMembers]
        exact hperm.mem_iff.symm
      · intro k x y hx hy
        obtain ⟨x', hx', rfl⟩ := mem_sortedMembers.mp (mem_byKey.mp hy)
        cases eq_of_key hnodup hx hx' rfl
        exact ih _ hx
  | _ => exact .refl _

theorem similar_of_sorted_eq (x : Tree) : ∀ {y : Tree}, Plain y → x.sorted = y.sorted →
    Similar x y := by
  induction x using recursion with
  | array xs ih =>
      intro y hy heq
      cases y with
      | array ys =>
          rw [sorted, sorted, sortedAll_eq, sortedAll_eq, array.injEq] at heq
          have hlength : xs.length = ys.length := by
            have hmap := congrArg List.length heq
            rwa [List.length_map, List.length_map] at hmap
          refine .array hlength ?_
          intro p hp
          obtain ⟨i, hi, rfl⟩ := List.mem_iff_getElem.mp hp
          rw [List.length_zip] at hi
          rw [List.getElem_zip]
          refine ih _ (List.getElem_mem (by omega)) (hy.elements _ (List.getElem_mem (by omega))) ?_
          have hget := List.getElem_of_eq heq (i := i) (by simp; omega)
          rwa [List.getElem_map, List.getElem_map] at hget
      | _ => cases heq
  | object ms ih =>
      intro y hy heq
      cases y with
      | object ns =>
          rw [sorted, sorted, object.injEq] at heq
          have hmem : ∀ m, m ∈ sortedMembers ms ↔ m ∈ sortedMembers ns := by
            intro m
            rw [← mem_byKey, heq, mem_byKey]
          refine .object ?_ ?_
          · intro k
            rw [← keys_sortedMembers ms, ← keys_sortedMembers ns, mem_keys, mem_keys]
            exact exists_congr fun x => hmem (k, x)
          · intro k x z hx hz
            obtain ⟨z', hz', hsorted⟩ :=
              mem_sortedMembers.mp ((hmem _).mp (mem_sortedMembers.mpr ⟨x, hx, rfl⟩))
            cases eq_of_key hy.nodup hz hz' rfl
            exact ih _ hx (hy.members _ hz) hsorted
      | _ => cases heq
  | _ =>
      intro y _ heq
      cases y <;> cases heq
      exact .refl _

/-- Two values are equal up to the order of members exactly when they are one when sorted. -/
theorem similar_iff (hx : Plain x) (hy : Plain y) : Similar x y ↔ x.sorted = y.sorted :=
  ⟨fun h => h.sorted_eq hx hy, similar_of_sorted_eq x hy⟩

theorem plain_sorted (h : Plain x) : Plain x.sorted := by
  induction h with
  | null => exact .null
  | boolean b => exact .boolean b
  | number x => exact .number x
  | string s => exact .string s
  | array _ ih =>
      rw [sorted, sortedAll_eq]
      refine .array ?_
      intro y hy
      obtain ⟨x, hx, rfl⟩ := List.mem_map.mp hy
      exact ih x hx
  | @object ms hnodup _ ih =>
      rw [sorted]
      refine .object ?_ ?_
      · rw [← keys_sortedMembers] at hnodup
        exact ((byKey_perm _).map Prod.fst).nodup_iff.mpr hnodup
      · rintro ⟨k, y⟩ hy
        obtain ⟨x, hx, rfl⟩ := mem_sortedMembers.mp (mem_byKey.mp hy)
        exact ih _ hx

end

end Tree

end Js
