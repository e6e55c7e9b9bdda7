import OpenSphere.Codec.Utf8
import OpenSphere.Sql.Jsonb

/-!
# The size of documents

How many octets the text of a document has.  An object has those of its members, whatever their
order (`octets_object`).
-/

namespace Sql

/-! ## Octets of documents -/

def octets (cs : List Char) : ℕ := (Codec.Utf8.encode cs).length

def quotedOctets (t : String) : ℕ := octets (quotedChars t)

theorem octets_cons (c : Char) (cs : List Char) : octets (c :: cs) = c.utf8Size + octets cs := by
  rw [octets, Codec.Utf8.encode, List.flatMap_cons, List.length_append, String.length_utf8EncodeChar]
  rfl

theorem octets_append (cs ds : List Char) : octets (cs ++ ds) = octets cs + octets ds := by
  rw [octets, Codec.Utf8.encode, List.flatMap_append, List.length_append]
  rfl

def fieldsOctets : Fields → ℕ
  | .nil => 0
  | .cons k x fs => quotedOctets k + octets x.chars + 4 + fieldsOctets fs

theorem octets_fields : ∀ fs : Fields, fs ≠ .nil → octets fs.chars + 2 = fieldsOctets fs
  | .nil, h => absurd rfl h
  | .cons k x .nil, _ => by
      rw [Fields.chars, octets_append, octets_cons, octets_cons, fieldsOctets, fieldsOctets,
        quotedOctets]
      have hcolon : ':'.utf8Size = 1 := rfl
      have hblank : ' '.utf8Size = 1 := rfl
      omega
  | .cons k x (.cons k' x' fs), _ => by
      have hrest := octets_fields (.cons k' x' fs) nofun
      rw [Fields.chars, octets_append, octets_append, octets_cons, octets_cons, octets_cons,
        octets_cons, fieldsOctets, ← hrest, quotedOctets]
      · have hcolon : ':'.utf8Size = 1 := rfl
        have hcomma : ','.utf8Size = 1 := rfl
        have hblank : ' '.utf8Size = 1 := rfl
        omega
      · nofun

theorem fieldsOctets_set (k : String) (x : Json) : ∀ fs : Fields, fs.get k = none →
    fieldsOctets (fs.set k x) = fieldsOctets fs + (quotedOctets k + octets x.chars + 4)
  | .nil => fun _ => by
      simp only [Fields.set, fieldsOctets]
      omega
  | .cons k' x' fs => fun h => by
      rw [Fields.get] at h
      split_ifs at h with hkey
      have hrest := fieldsOctets_set k x fs h
      rw [Fields.set, if_neg hkey]
      split_ifs
      · rw [fieldsOctets, fieldsOctets]
        omega
      · rw [fieldsOctets, fieldsOctets, hrest]
        omega

/-- The octets of a key and its value, with the colon and a comma or a brace. -/
def memberOctets (kv : String × Jsonb) : ℕ := quotedOctets kv.1 + octets kv.2.tree.chars + 4

theorem fieldsOctets_fields {kvs : List (String × Jsonb)} (h : (kvs.map Prod.fst).Nodup) :
    fieldsOctets (Jsonb.fields kvs).1 = (kvs.map memberOctets).sum := by
  have hfold : ∀ (kvs : List (String × Jsonb)) (acc : { fs : Fields // fs.ordered = true }),
      (kvs.map Prod.fst).Nodup → (∀ kv ∈ kvs, acc.1.get kv.1 = none) →
      fieldsOctets (kvs.foldl (fun fs kv => ⟨fs.1.set kv.1 kv.2.tree,
        Fields.ordered_set kv.1 kv.2.ordered fs.1 fs.2⟩) acc).1 =
          fieldsOctets acc.1 + (kvs.map memberOctets).sum := by
    intro kvs
    induction kvs with
    | nil =>
        intro acc _ _
        rfl
    | cons kv kvs ih =>
        intro acc hnodup hfresh
        rw [List.map_cons, List.nodup_cons] at hnodup
        obtain ⟨hkv, hkvs⟩ := List.forall_mem_cons.mp hfresh
        rw [List.foldl_cons, ih _ hnodup.2, fieldsOctets_set _ _ _ hkv, List.map_cons,
          List.sum_cons, memberOctets]
        · omega
        · intro kv' hkv'
          have hne : kv'.1 ≠ kv.1 := fun heq =>
            hnodup.1 (heq ▸ List.mem_map_of_mem hkv')
          rw [Fields.get_set, if_neg hne]
          exact hkvs kv' hkv'
  rw [Jsonb.fields, hfold kvs ⟨.nil, rfl⟩ h fun _ _ => rfl]
  exact Nat.zero_add _

theorem octets_object {kvs : List (String × Jsonb)} (hne : kvs ≠ [])
    (h : (kvs.map Prod.fst).Nodup) :
    octets (Jsonb.object kvs).tree.chars = (kvs.map memberOctets).sum := by
  have hfields := fieldsOctets_fields h
  have hnil : (Jsonb.fields kvs).1 ≠ .nil := by
    intro hnil
    obtain ⟨kv, kvs, rfl⟩ := List.exists_cons_of_ne_nil hne
    rw [hnil, fieldsOctets, List.map_cons, List.sum_cons, memberOctets] at hfields
    omega
  have hchars := octets_fields _ hnil
  rw [hfields] at hchars
  show octets ('\x7b' :: (Jsonb.fields kvs).1.chars ++ ['\x7d']) = _
  rw [octets_append, octets_cons, octets_cons]
  have hopen : '\x7b'.utf8Size = 1 := rfl
  have hclose : '\x7d'.utf8Size = 1 := rfl
  have hnone : octets [] = 0 := rfl
  omega

/-! ## Octets of texts -/

/-- A character that stands for itself, in one octet. -/
def Simple (c : Char) : Prop := 0x20 ≤ c.toNat ∧ c.toNat < 0x7F ∧ c ≠ '"' ∧ c ≠ '\\'

instance (c : Char) : Decidable (Simple c) := inferInstanceAs (Decidable (_ ∧ _))

theorem escape_simple {cs : List Char} (h : ∀ c ∈ cs, Simple c) : cs.flatMap escapeChar = cs := by
  induction cs with
  | nil => rfl
  | cons c cs ih =>
      obtain ⟨⟨hlo, hhi, hquote, hslash⟩, hcs⟩ := List.forall_mem_cons.mp h
      have hne : ∀ d : Char, d.toNat < 0x20 → c ≠ d := by
        rintro d hd rfl
        omega
      have hescape : escapeChar c = [c] := by
        unfold escapeChar
        rw [if_neg hquote, if_neg hslash, if_neg (hne _ (by decide)), if_neg (hne _ (by decide)),
          if_neg (hne _ (by decide)), if_neg (by omega), if_neg (by omega), if_neg (by omega)]
      rw [List.flatMap_cons, hescape, ih hcs]
      rfl

theorem octets_ascii {cs : List Char} (h : ∀ c ∈ cs, c.toNat < 0x80) : octets cs = cs.length := by
  induction cs with
  | nil => rfl
  | cons c cs ih =>
      obtain ⟨hc, hcs⟩ := List.forall_mem_cons.mp h
      have hsize : c.utf8Size = 1 := by
        rw [Char.utf8Size_eq_one_iff]
        show c.toNat ≤ 127
        omega
      rw [octets_cons, ih hcs, hsize, List.length_cons, Nat.add_comm]

theorem quotedOctets_simple {t : String} (h : ∀ c ∈ chars t, Simple c) :
    quotedOctets t = (chars t).length + 2 := by
  have hascii : ∀ c ∈ chars t, c.toNat < 0x80 := by
    intro c hc
    have hhi := (h c hc).2.1
    omega
  rw [quotedOctets, quotedChars, List.cons_append, octets_cons, octets_append, escape_simple h,
    octets_ascii hascii, octets_cons]
  have hquote : '"'.utf8Size = 1 := rfl
  have hnone : octets [] = 0 := rfl
  omega

theorem octets_natural (n : ℕ) : octets (Jsonb.ofInt n).tree.chars = (Nat.toDigits 10 n).length := by
  have hchars : (Jsonb.ofInt n).tree.chars = Nat.toDigits 10 n := by
    have htext := Option.some.inj (Jsonb.asText_ofInt n)
    rw [decimal, String.ofList_inj] at htext
    exact htext
  rw [hchars]
  refine octets_ascii fun c hc => ?_
  have hdigit := Nat.isDigit_of_mem_toDigits (by omega) (by omega) hc
  rw [Char.isDigit_iff_toNat] at hdigit
  exact Nat.lt_of_le_of_lt hdigit.2 (by decide)

theorem octets_le (cs : List Char) : octets cs ≤ 4 * cs.length := by
  induction cs with
  | nil => exact Nat.le_refl _
  | cons c cs ih =>
      have hsize := Char.utf8Size_le_four c
      rw [octets_cons, List.length_cons]
      omega

theorem length_escapeChar (c : Char) : (escapeChar c).length ≤ 6 := by
  unfold escapeChar
  split_ifs <;> simp

theorem quotedOctets_le (t : String) : quotedOctets t ≤ 24 * (chars t).length + 2 := by
  have hescape : ∀ cs : List Char, octets (cs.flatMap escapeChar) ≤ 24 * cs.length := by
    intro cs
    induction cs with
    | nil => exact Nat.le_refl _
    | cons c cs ih =>
        have hchar := octets_le (escapeChar c)
        have hlength := length_escapeChar c
        rw [List.flatMap_cons, octets_append, List.length_cons]
        omega
  have htext := hescape (chars t)
  rw [quotedOctets, quotedChars, List.cons_append, octets_cons, octets_append, octets_cons]
  have hquote : '"'.utf8Size = 1 := rfl
  have hnone : octets [] = 0 := rfl
  omega

end Sql
