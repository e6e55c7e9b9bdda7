import OpenSphere.Catalog.Objects

/-!
# Printable texts

A text of printable ASCII characters is as long in JavaScript as it is here, a pattern matches it in
either language alike, and no control character is in it.  The names and digests that the Registry
checks are such texts.
-/

open Sql

namespace Catalog

variable {s t : String} {c : Char}

theorem chars_append (s t : String) : chars (s ++ t) = chars s ++ chars t := by
  rw [chars_eq, chars_eq, chars_eq, String.toList_append]

def printable (c : Char) : Bool := decide (0x20 ≤ c.toNat) && decide (c.toNat < 0x7F)

def Printable (s : String) : Prop := ∀ c ∈ chars s, printable c = true

theorem printable_between {lo hi : Char} (hlo : 0x20 ≤ lo.toNat) (hhi : hi.toNat < 0x7F)
    (h : lo ≤ c) (h' : c ≤ hi) : printable c = true := by
  have hlow : lo.toNat ≤ c.toNat := UInt32.le_iff_toNat_le.mp h
  have hhigh : c.toNat ≤ hi.toNat := UInt32.le_iff_toNat_le.mp h'
  simp only [printable, Bool.and_eq_true, decide_eq_true_eq]
  omega

theorem printable_digit (h : digit c = true) : printable c = true := by
  simp only [digit, Bool.and_eq_true, decide_eq_true_eq] at h
  exact printable_between (by decide) (by decide) h.1 h.2

theorem printable_hexLower (h : hexLower c = true) : printable c = true := by
  simp only [hexLower, Bool.or_eq_true, Bool.and_eq_true, decide_eq_true_eq] at h
  rcases h with h | ⟨hlo, hhi⟩
  · exact printable_digit h
  · exact printable_between (by decide) (by decide) hlo hhi

theorem printable_alphanumeric (h : alphanumeric c = true) : printable c = true := by
  simp only [alphanumeric, lower, Bool.or_eq_true, Bool.and_eq_true, decide_eq_true_eq] at h
  rcases h with ⟨hlo, hhi⟩ | h
  · exact printable_between (by decide) (by decide) hlo hhi
  · exact printable_digit h

theorem printable_orOneOf {p : Char → Bool} {s : List Char} (hp : ∀ c, p c = true → printable c = true)
    (hs : s.all printable = true) (h : orOneOf p s c = true) : printable c = true := by
  rcases Bool.or_eq_true_iff.mp h with h | h
  · exact hp c h
  · exact List.all_eq_true.mp hs c (List.contains_iff_mem.mp h)

theorem printable_labelChar (h : labelChar c = true) : printable c = true :=
  printable_orOneOf (fun _ => printable_alphanumeric) (by decide) h

theorem Printable.append (hs : Printable s) (ht : Printable t) : Printable (s ++ t) := by
  intro c hc
  rw [chars_append] at hc
  exact (List.mem_append.mp hc).elim (hs c) (ht c)

theorem printable_text (h : (chars s).all printable = true) : Printable s :=
  List.all_eq_true.mp h

theorem Printable.basic (h : Printable s) : Js.Basic s := by
  intro c hc
  have hprint := h c hc
  simp only [printable, Bool.and_eq_true, decide_eq_true_eq] at hprint
  omega

theorem Printable.length (h : Printable s) : Js.length s = (chars s).length := by
  rw [Js.length, Js.units_eq_chars h.basic]

theorem Printable.test (h : Printable s) (r : Pattern) : Js.test r s = r.full s :=
  Js.test_eq_full h.basic r

theorem length_append (s t : String) : (chars (s ++ t)).length = (chars s).length + (chars t).length := by
  rw [chars_append, List.length_append]

/-! ## The formats of the Registry -/

theorem full_text_append {rs : List Pattern} :
    Pattern.full (.seq (.text s :: rs)) (s ++ t) = Pattern.full (.seq rs) t := by
  rw [Pattern.full, Pattern.seq_cons, Pattern.text, chars_append, matchChars_append]
  rfl

theorem extensionId_printable {id : String} (h : extensionId id = true) :
    Printable id ∧ 1 ≤ (chars id).length ∧ (chars id).length ≤ 63 := by
  obtain ⟨c, t, hchars, hc, ht, hlength⟩ := extensionId_iff.mp h
  refine ⟨fun d hd => ?_, ?_, ?_⟩
  · rw [hchars] at hd
    rcases List.mem_cons.mp hd with rfl | hd
    · exact printable_alphanumeric hc
    · exact printable_labelChar (ht d hd)
  · rw [hchars, List.length_cons]
    omega
  · rw [hchars, List.length_cons]
    omega

theorem manifestFormat_iff :
    manifestFormat t = true ↔ (∀ c ∈ chars t, hexLower c = true) ∧ (chars t).length = 64 := by
  rw [manifestFormat, Pattern.times, Pattern.full_repeated]
  constructor
  · rintro ⟨ht, hlo, hhi⟩
    exact ⟨ht, Nat.le_antisymm (hhi 64 rfl) hlo⟩
  · rintro ⟨ht, hlength⟩
    exact ⟨ht, hlength.ge, fun n hn => Option.some.inj hn ▸ hlength.le⟩

theorem manifestFormat_printable (h : manifestFormat t = true) : Printable t :=
  fun c hc => printable_hexLower ((manifestFormat_iff.mp h).1 c hc)

theorem digestFormat_iff {d : String} :
    digestFormat d = true ↔ ∃ t, d = "sha256:" ++ t ∧ manifestFormat t = true := by
  constructor
  · intro h
    rw [digestFormat, Pattern.full, Pattern.seq_cons, Pattern.text_iff] at h
    obtain ⟨rest, heq, hrest⟩ := h
    refine ⟨String.ofList rest, ?_, ?_⟩
    · apply Js.chars_injective
      rw [chars_append, chars_ofList rest, heq]
    · rw [manifestFormat, Pattern.full, chars_ofList]
      exact hrest
  · rintro ⟨t, rfl, ht⟩
    rw [digestFormat, full_text_append]
    exact ht

theorem digestFormat_printable {d : String} (h : digestFormat d = true) :
    Printable d ∧ (chars d).length = 71 ∧ '@' ∉ chars d := by
  obtain ⟨t, rfl, ht⟩ := digestFormat_iff.mp h
  obtain ⟨hhex, hlength⟩ := manifestFormat_iff.mp ht
  refine ⟨(printable_text (by decide)).append (manifestFormat_printable ht), ?_, ?_⟩
  · rw [length_append, hlength]
    decide
  · intro hmem
    rw [chars_append] at hmem
    rcases List.mem_append.mp hmem with hmem | hmem
    · revert hmem
      decide
    · exact absurd (hhex _ hmem) (by decide)

end Catalog
