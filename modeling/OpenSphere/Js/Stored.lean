import OpenSphere.Js.Json
import OpenSphere.Js.Tree

/-!
# JSON values in a database

A value is sent to the database as its JSON text and stored as `jsonb`.  A text of the language
need not be one of the database: half a pair that stands alone is written as an escape that the
database refuses, and so is U+0000.

`document_isSome_iff` says which values are stored.
-/

open Sql (Jsonb chars)

namespace Js

variable {s : Utf16} {cs : List Char}

/-! ## Texts -/

/-- The characters of a text, if no half of a pair stands alone. -/
def characters : Utf16 → Option (List Char)
  | [] => some []
  | [u] => if leading u ∨ trailing u then none else some [Char.ofNat u.val]
  | u :: v :: us =>
      if leading u ∧ trailing v then (characters us).map (pairChar u v :: ·)
      else if leading u ∨ trailing u then none
      else (characters (v :: us)).map (Char.ofNat u.val :: ·)

def storedText (s : Utf16) : Option String :=
  (characters s).bind fun cs => textDocument (String.ofList cs)

/-- A text of characters other than U+0000. -/
def Sound (s : Utf16) : Prop := ∃ cs, utf16 cs = s ∧ ∀ c ∈ cs, c.toNat ≠ 0

theorem characters_cons {u : CodeUnit} (hlead : ¬ leading u) (htrail : ¬ trailing u) (us : Utf16) :
    characters (u :: us) = (characters us).map (Char.ofNat u.val :: ·) := by
  cases us with
  | nil =>
      unfold characters
      exact if_neg (not_or.mpr ⟨hlead, htrail⟩)
  | cons v us =>
      rw [characters, if_neg (fun h => hlead h.1), if_neg (not_or.mpr ⟨hlead, htrail⟩)]

theorem characters_unitsOf (c : Char) (us : Utf16) :
    characters (unitsOf c ++ us) = (characters us).map (c :: ·) := by
  have hvalid : c.toNat < 0xD800 ∨ 0xE000 ≤ c.toNat ∧ c.toNat < 0x110000 := by
    have h := c.valid
    unfold UInt32.isValidChar Nat.isValidChar at h
    have heq : c.val.toNat = c.toNat := rfl
    omega
  unfold unitsOf
  split_ifs with hbasic
  · have hval : (Fin.ofNat 65536 c.toNat).val = c.toNat := by
      rw [Fin.val_ofNat, Nat.mod_eq_of_lt hbasic]
    rw [List.singleton_append, characters_cons, hval, Char.ofNat_toNat]
    · unfold leading
      rw [hval]
      omega
    · unfold trailing
      rw [hval]
      omega
  · have hhead : (Fin.ofNat 65536 (0xD800 + (c.toNat - 0x10000) / 0x400)).val =
        0xD800 + (c.toNat - 0x10000) / 0x400 := by
      rw [Fin.val_ofNat, Nat.mod_eq_of_lt (by omega)]
    have htail : (Fin.ofNat 65536 (0xDC00 + (c.toNat - 0x10000) % 0x400)).val =
        0xDC00 + (c.toNat - 0x10000) % 0x400 := by
      rw [Fin.val_ofNat, Nat.mod_eq_of_lt (by omega)]
    have hpair : leading (Fin.ofNat 65536 (0xD800 + (c.toNat - 0x10000) / 0x400)) ∧
        trailing (Fin.ofNat 65536 (0xDC00 + (c.toNat - 0x10000) % 0x400)) := by
      unfold leading trailing
      rw [hhead, htail]
      omega
    rw [List.cons_append, List.singleton_append, characters, if_pos hpair, pairChar, hhead, htail]
    have hchar : 0x10000 + (0xD800 + (c.toNat - 0x10000) / 0x400 - 0xD800) * 0x400 +
        (0xDC00 + (c.toNat - 0x10000) % 0x400 - 0xDC00) = c.toNat := by
      omega
    rw [hchar, Char.ofNat_toNat]

theorem characters_utf16 (cs : List Char) : characters (utf16 cs) = some cs := by
  induction cs with
  | nil => rfl
  | cons c cs ih =>
      rw [utf16, List.flatMap_cons, characters_unitsOf]
      exact congrArg _ ih

theorem utf16_of_characters : ∀ {s cs}, characters s = some cs → utf16 cs = s := by
  intro s
  induction s using characters.induct with
  | case1 =>
      intro cs h
      cases h
      rfl
  | case2 u hhalf =>
      intro cs h
      rw [characters, if_pos hhalf] at h
      cases h
  | case3 u hhalf =>
      intro cs h
      rw [characters, if_neg hhalf] at h
      cases h
      obtain ⟨hlead, htrail⟩ := not_or.mp hhalf
      rw [utf16, List.flatMap_singleton, unitsOf_ofNat hlead htrail]
  | case4 u v us hpair ih =>
      intro cs h
      rw [characters, if_pos hpair] at h
      obtain ⟨rest, hrest, rfl⟩ := Option.map_eq_some_iff.mp h
      rw [utf16, List.flatMap_cons, unitsOf_pairChar hpair.1 hpair.2]
      exact congrArg (u :: v :: ·) (ih hrest)
  | case5 u v us hpair hhalf =>
      intro cs h
      rw [characters, if_neg hpair, if_pos hhalf] at h
      cases h
  | case6 u v us hpair hhalf ih =>
      intro cs h
      rw [characters, if_neg hpair, if_neg hhalf] at h
      obtain ⟨rest, hrest, rfl⟩ := Option.map_eq_some_iff.mp h
      obtain ⟨hlead, htrail⟩ := not_or.mp hhalf
      rw [utf16, List.flatMap_cons, unitsOf_ofNat hlead htrail]
      exact congrArg (u :: ·) (ih hrest)

theorem characters_eq_some : characters s = some cs ↔ utf16 cs = s := by
  refine ⟨utf16_of_characters, ?_⟩
  rintro rfl
  exact characters_utf16 cs

theorem textDocument_isSome_iff (t : String) :
    (textDocument t).isSome = true ↔ ∀ c ∈ chars t, c.toNat ≠ 0 := by
  unfold textDocument
  split_ifs with h
  · simpa using h
  · simpa using h

theorem storedText_isSome_iff : (storedText s).isSome = true ↔ Sound s := by
  unfold storedText Sound
  cases hchars : characters s with
  | none =>
      refine iff_of_false (by simp) ?_
      rintro ⟨cs, hcs, -⟩
      rw [characters_eq_some.mpr hcs] at hchars
      cases hchars
  | some cs =>
      rw [Option.bind_some, textDocument_isSome_iff, Sql.chars_ofList]
      constructor
      · exact fun h => ⟨cs, characters_eq_some.mp hchars, h⟩
      · rintro ⟨cs', hcs', h⟩
        rw [characters_eq_some.mpr hcs'] at hchars
        cases hchars
        exact h

theorem storedText_literal {t : String} (h : ∀ c ∈ chars t, c.toNat ≠ 0) :
    storedText (literal t) = some t := by
  have hnone : (chars t).any (fun c => c.toNat == 0) = false := by simpa using h
  rw [storedText, literal, characters_utf16, Option.bind_some, textDocument, Sql.chars_ofList,
    hnone, Sql.chars_eq, String.ofList_toList]
  rfl

/-! ## Values -/

namespace Tree

mutual

/-- `JSON.stringify(x)::jsonb`, if the cast accepts it. -/
def document : Tree → Option Jsonb
  | .null => some .null
  | .boolean b => some (.ofBool b)
  | .number (.finite x) => some (numberDocument (String.ofList x.text))
  | .number (.infinite _) => some .null
  | .string s => (storedText s).map .ofText
  | .array xs => (documents xs).map arrayDocument
  | .object ms => (memberDocuments ms).map .object

def documents : List Tree → Option (List Jsonb)
  | [] => some []
  | x :: xs => do
      let x ← x.document
      let xs ← documents xs
      return x :: xs

def memberDocuments : List (Utf16 × Tree) → Option (List (String × Jsonb))
  | [] => some []
  | (k, x) :: ms => do
      let k ← storedText k
      let x ← x.document
      let ms ← memberDocuments ms
      return (k, x) :: ms

end

/-- A value whose texts and keys are sound. -/
inductive Storable : Tree → Prop where
  | null : Storable .null
  | boolean (b : Bool) : Storable (.boolean b)
  | number (x : Number) : Storable (.number x)
  | string {s : Utf16} : Sound s → Storable (.string s)
  | array {xs : List Tree} : (∀ x ∈ xs, Storable x) → Storable (.array xs)
  | object {ms : List (Utf16 × Tree)} :
      (∀ m ∈ ms, Sound m.1) → (∀ m ∈ ms, Storable m.2) → Storable (.object ms)

theorem Storable.elements {xs : List Tree} (h : Storable (.array xs)) : ∀ x ∈ xs, Storable x := by
  cases h with
  | array h => exact h

theorem Storable.members {ms : List (Utf16 × Tree)} (h : Storable (.object ms)) :
    ∀ m ∈ ms, Sound m.1 ∧ Storable m.2 := by
  cases h with
  | object hkeys hvalues => exact fun m hm => ⟨hkeys m hm, hvalues m hm⟩

theorem documents_isSome {xs : List Tree} :
    (documents xs).isSome = true ↔ ∀ x ∈ xs, x.document.isSome = true := by
  induction xs with
  | nil => simp [documents]
  | cons x xs ih =>
      rw [documents, List.forall_mem_cons, ← ih]
      cases x.document <;> cases documents xs <;> simp

theorem memberDocuments_isSome {ms : List (Utf16 × Tree)} : (memberDocuments ms).isSome = true ↔
    ∀ m ∈ ms, (storedText m.1).isSome = true ∧ m.2.document.isSome = true := by
  induction ms with
  | nil => simp [memberDocuments]
  | cons m ms ih =>
      rw [memberDocuments, List.forall_mem_cons, ← ih]
      cases storedText m.1 <;> cases m.2.document <;> cases memberDocuments ms <;> simp

/-- The values that are stored are those whose texts are sound. -/
theorem document_isSome_iff (x : Tree) : x.document.isSome = true ↔ Storable x := by
  induction x using recursion with
  | null => exact iff_of_true rfl .null
  | boolean b => exact iff_of_true rfl (.boolean b)
  | number x => cases x <;> exact iff_of_true rfl (.number _)
  | string s =>
      rw [document, Option.isSome_map, storedText_isSome_iff]
      exact ⟨.string, fun h => by cases h; assumption⟩
  | array xs ih =>
      rw [document, Option.isSome_map, documents_isSome]
      constructor
      · exact fun h => .array fun x hx => (ih x hx).mp (h x hx)
      · exact fun h x hx => (ih x hx).mpr (h.elements x hx)
  | object ms ih =>
      rw [document, Option.isSome_map, memberDocuments_isSome]
      constructor
      · exact fun h => .object (fun m hm => storedText_isSome_iff.mp (h m hm).1)
          fun m hm => (ih m hm).mp (h m hm).2
      · exact fun h m hm =>
          ⟨storedText_isSome_iff.mpr (h.members m hm).1, (ih m hm).mpr (h.members m hm).2⟩

end Tree

end Js
