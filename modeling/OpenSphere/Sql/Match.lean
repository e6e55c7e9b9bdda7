import OpenSphere.Sql.Text

/-!
# What a pattern matches

A pattern takes a beginning of a text and leaves the rest to its continuation, so each
constructor is described by the ways to split the text.  The equivalences here turn a match
into such a split, and a split into a match.
-/

namespace Sql

variable {p : Char → Bool} {lo : Nat} {hi : Option Nat}

/-- Literal text splits off. -/
theorem matchChars_iff {t : List Char} {k : List Char → Bool} {cs : List Char} :
    matchChars t k cs = true ↔ ∃ rest, cs = t ++ rest ∧ k rest = true := by
  induction t generalizing cs with
  | nil => simp [matchChars]
  | cons c t ih =>
      cases cs with
      | nil => simp [matchChars]
      | cons d cs =>
          simp only [matchChars, Bool.and_eq_true, beq_iff_eq, ih]
          constructor
          · rintro ⟨rfl, rest, rfl, hk⟩
            exact ⟨rest, rfl, hk⟩
          · rintro ⟨rest, heq, hk⟩
            simp only [List.cons_append, List.cons.injEq] at heq
            exact ⟨heq.1.symm, rest, heq.2, hk⟩

/-- A repeated class splits off some characters of the class, within the bounds. -/
theorem matchClass_iff {k : List Char → Bool} {cs : List Char}
    :
    matchClass p k cs lo hi = true ↔ ∃ t rest, cs = t ++ rest ∧ (∀ c ∈ t, p c = true) ∧
      lo ≤ t.length ∧ (∀ n, hi = some n → t.length ≤ n) ∧ k rest = true := by
  induction cs generalizing lo hi with
  | nil =>
      simp only [matchClass, Bool.and_eq_true, beq_iff_eq]
      constructor
      · rintro ⟨rfl, hk⟩
        exact ⟨[], [], rfl, by simp, Nat.le_refl 0, fun _ _ => Nat.zero_le _, hk⟩
      · rintro ⟨t, rest, heq, -, hlo, -, hk⟩
        obtain ⟨rfl, rfl⟩ := List.append_eq_nil_iff.mp heq.symm
        exact ⟨Nat.le_zero.mp hlo, hk⟩
  | cons c cs ih =>
      simp only [matchClass, Bool.or_eq_true, Bool.and_eq_true, beq_iff_eq, bne_iff_ne, ne_eq, ih]
      constructor
      · rintro (⟨rfl, hk⟩ | ⟨⟨hhi, hc⟩, t, rest, rfl, ht, hlo, hle, hk⟩)
        · exact ⟨[], c :: cs, rfl, by simp, Nat.le_refl 0, fun _ _ => Nat.zero_le _, hk⟩
        · refine ⟨c :: t, rest, rfl, List.forall_mem_cons.mpr ⟨hc, ht⟩, ?_, fun n hn => ?_, hk⟩
          · simp only [List.length_cons]
            omega
          · have hne : n ≠ 0 := by
              rintro rfl
              exact hhi hn
            have hbound := hle (n - 1) (by rw [hn]; rfl)
            simp only [List.length_cons]
            omega
      · rintro ⟨t, rest, heq, ht, hlo, hle, hk⟩
        cases t with
        | nil =>
            rw [List.nil_append] at heq
            exact .inl ⟨Nat.le_zero.mp hlo, heq ▸ hk⟩
        | cons d t =>
            simp only [List.cons_append, List.cons.injEq] at heq
            obtain ⟨rfl, rfl⟩ := heq
            obtain ⟨hc, ht⟩ := List.forall_mem_cons.mp ht
            simp only [List.length_cons] at hlo hle
            refine .inr ⟨⟨?_, hc⟩, t, rest, rfl, ht, by omega, fun n hn => ?_, hk⟩
            · rintro hzero
              exact absurd (hle 0 hzero) (by omega)
            · obtain ⟨m, rfl, rfl⟩ := Option.map_eq_some_iff.mp hn
              have := hle m rfl
              omega

namespace Pattern

variable {k : List Char → Bool} {cs : List Char}

theorem text_iff {s : String} :
    text s k cs = true ↔ ∃ rest, cs = chars s ++ rest ∧ k rest = true :=
  matchChars_iff

theorem repeated_iff :
    repeated p lo hi k cs = true ↔ ∃ t rest, cs = t ++ rest ∧ (∀ c ∈ t, p c = true) ∧
      lo ≤ t.length ∧ (∀ n, hi = some n → t.length ≤ n) ∧ k rest = true :=
  matchClass_iff

theorem times_iff {n : Nat} :
    times p n k cs = true ↔ ∃ t rest, cs = t ++ rest ∧ (∀ c ∈ t, p c = true) ∧ t.length = n ∧
      k rest = true := by
  rw [times, repeated_iff]
  constructor
  · rintro ⟨t, rest, heq, ht, hlo, hhi, hk⟩
    exact ⟨t, rest, heq, ht, Nat.le_antisymm (hhi n rfl) hlo, hk⟩
  · rintro ⟨t, rest, heq, ht, rfl, hk⟩
    refine ⟨t, rest, heq, ht, Nat.le_refl _, ?_, hk⟩
    rintro m ⟨⟩
    exact Nat.le_refl _

theorem opt_iff {r : Pattern} : opt r k cs = true ↔ r k cs = true ∨ k cs = true := by
  rw [opt, Bool.or_eq_true]

@[simp] theorem seq_cons (r : Pattern) (rs : List Pattern) : seq (r :: rs) k = r (seq rs k) := rfl

@[simp] theorem seq_nil : seq [] k = k := rfl

theorem within_opt {r : Pattern} (h : Within p r) : Within p (opt r) := by
  intro k cs hk
  rcases opt_iff.mp hk with hr | hrest
  · exact h k cs hr
  · exact ⟨[], cs, rfl, nofun, hrest⟩

/-- A class that has every character of a text, in a number of them that is in the bounds. -/
theorem full_repeated {s : String} :
    (repeated p lo hi).full s = true ↔ (∀ c ∈ chars s, p c = true) ∧ lo ≤ (chars s).length ∧
      ∀ n, hi = some n → (chars s).length ≤ n := by
  rw [full, repeated_iff]
  constructor
  · rintro ⟨t, rest, heq, ht, hlo, hhi, hk⟩
    obtain rfl := List.isEmpty_iff.mp hk
    rw [List.append_nil] at heq
    rw [heq]
    exact ⟨ht, hlo, hhi⟩
  · rintro ⟨ht, hlo, hhi⟩
    exact ⟨chars s, [], (List.append_nil _).symm, ht, hlo, hhi, rfl⟩

end Pattern

end Sql
