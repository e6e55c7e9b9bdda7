import Mathlib.Data.Prod.Lex
import Mathlib.Data.List.Forall2
import Mathlib.Data.Set.Insert
import Mathlib.Order.Interval.Set.Defs
import OpenSphere.Host.Version
import OpenSphere.Sql.Digits

/-!
# What a range means

A version stands in the lexicographic order of its three parts, and a comparator is an
interval of that order.  A range is a union of intersections of intervals.

`Range.Written` is the grammar: it says how a range is laid out as a text.  `parse_iff` says
that `parse` accepts that grammar and no more, and `satisfied_iff` that the function which
checks a version computes the meaning.
-/

open Sql

namespace Host

variable {ts : List (List Char)} {c : Comparator} {t : List Char} {v : Version}

/-! ## The order of versions -/

def Version.key (v : Version) : ℕ ×ₗ ℕ ×ₗ ℕ := toLex (v.major, toLex (v.minor, v.patch))

theorem key_lt_iff {a b : Version} : a.key < b.key ↔ a.major < b.major ∨
    a.major = b.major ∧ (a.minor < b.minor ∨ a.minor = b.minor ∧ a.patch < b.patch) := by
  unfold Version.key
  rw [Prod.Lex.toLex_lt_toLex]
  dsimp only
  rw [Prod.Lex.toLex_lt_toLex]

/-- `compare` says how two versions lie. -/
theorem compare_cases (a b : Version) :
    compare a b = -1 ∧ a.key < b.key ∨ compare a b = 0 ∧ a.key = b.key ∨
      compare a b = 1 ∧ b.key < a.key := by
  rw [key_lt_iff, key_lt_iff]
  unfold compare
  by_cases hmajor : a.major = b.major
  · by_cases hminor : a.minor = b.minor
    · by_cases hpatch : a.patch = b.patch
      · simp [hmajor, hminor, hpatch, Version.key]
      · rcases Nat.lt_or_gt_of_ne hpatch with h | h
        · simp [hmajor, hminor, hpatch, h]
        · simp [hmajor, hminor, hpatch, h, Nat.lt_asymm h]
    · rcases Nat.lt_or_gt_of_ne hminor with h | h
      · simp [hmajor, hminor, h]
      · simp [hmajor, hminor, h, Nat.lt_asymm h]
  · rcases Nat.lt_or_gt_of_ne hmajor with h | h
    · simp [hmajor, h]
    · simp [hmajor, h, Nat.lt_asymm h]

variable {a b : Version}

theorem compare_neg_iff : compare a b < 0 ↔ a.key < b.key := by
  rcases compare_cases a b with ⟨h, hkey⟩ | ⟨h, hkey⟩ | ⟨h, hkey⟩
  · simp [h, hkey]
  · simp [h, hkey]
  · simp [h, hkey.le]

theorem compare_pos_iff : 0 < compare a b ↔ b.key < a.key := by
  rcases compare_cases a b with ⟨h, hkey⟩ | ⟨h, hkey⟩ | ⟨h, hkey⟩
  · simp [h, hkey.le]
  · simp [h, hkey]
  · simp [h, hkey]

theorem compare_nonneg_iff : 0 ≤ compare a b ↔ b.key ≤ a.key := by
  rw [← not_lt, compare_neg_iff, not_lt]

theorem compare_nonpos_iff : compare a b ≤ 0 ↔ a.key ≤ b.key := by
  rw [← not_lt, compare_pos_iff, not_lt]

theorem compare_eq_zero_iff : compare a b = 0 ↔ a.key = b.key := by
  rw [le_antisymm_iff, compare_nonpos_iff, compare_nonneg_iff, le_antisymm_iff]

/-! ## The meaning of a comparator -/

/-- The first version that changes the leftmost part which is not 0. -/
def Version.nextBreaking (v : Version) : Version :=
  match v with
  | ⟨0, 0, patch⟩ => ⟨0, 0, patch + 1⟩
  | ⟨0, minor, _⟩ => ⟨0, minor + 1, 0⟩
  | ⟨major, _, _⟩ => ⟨major + 1, 0, 0⟩

def Comparator.interval (c : Comparator) : Set (ℕ ×ₗ ℕ ×ₗ ℕ) :=
  match c.op with
  | .eq => {c.version.key}
  | .ge => Set.Ici c.version.key
  | .le => Set.Iic c.version.key
  | .gt => Set.Ioi c.version.key
  | .lt => Set.Iio c.version.key
  | .caret => Set.Ico c.version.key c.version.nextBreaking.key
  | .tilde => Set.Ico c.version.key (Version.key ⟨c.version.major, c.version.minor + 1, 0⟩)

theorem upper_caret (h : c.op = .caret) : c.upper = c.version.nextBreaking := by
  obtain ⟨op, major, minor, patch⟩ := c
  subst h
  cases major with
  | zero =>
      cases minor with
      | zero => rfl
      | succ minor => simp [Comparator.upper, Version.nextBreaking]
  | succ major => simp [Comparator.upper, Version.nextBreaking]

theorem admits_iff : c.admits v = true ↔ v.key ∈ c.interval := by
  unfold Comparator.admits Comparator.interval
  cases hop : c.op with
  | ge => rw [decide_eq_true_iff, compare_nonneg_iff, Set.mem_Ici]
  | le => rw [decide_eq_true_iff, compare_nonpos_iff, Set.mem_Iic]
  | gt => rw [decide_eq_true_iff, compare_pos_iff, Set.mem_Ioi]
  | lt => rw [decide_eq_true_iff, compare_neg_iff, Set.mem_Iio]
  | eq => rw [decide_eq_true_iff, compare_eq_zero_iff, Set.mem_singleton_iff]
  | caret =>
      rw [decide_eq_true_iff, compare_nonneg_iff, compare_neg_iff, upper_caret hop, Set.mem_Ico]
  | tilde =>
      have hupper : c.upper = ⟨c.version.major, c.version.minor + 1, 0⟩ := if_pos hop
      rw [decide_eq_true_iff, compare_nonneg_iff, compare_neg_iff, hupper, Set.mem_Ico]

/-- The versions that a range admits: those in every interval of one of its alternatives. -/
def admitted (alternatives : List (List Comparator)) : Set (ℕ ×ₗ ℕ ×ₗ ℕ) :=
  {k | ∃ alternative ∈ alternatives, ∀ c ∈ alternative, k ∈ c.interval}

/-! ## The text of a version -/

def Version.text (v : Version) : List Char :=
  Nat.toDigits 10 v.major ++ '.' :: (Nat.toDigits 10 v.minor ++ '.' :: Nat.toDigits 10 v.patch)

def Version.Safe (v : Version) : Prop :=
  v.major < 2 ^ 53 ∧ v.minor < 2 ^ 53 ∧ v.patch < 2 ^ 53

instance (v : Version) : Decidable v.Safe := inferInstanceAs (Decidable (_ ∧ _ ∧ _))

variable {k : List Char → Bool} {cs : List Char}

theorem canonicalNumber_iff :
    canonicalNumber k cs = true ↔ ∃ n rest, cs = Nat.toDigits 10 n ++ rest ∧ k rest = true := by
  have halternatives : canonicalNumber k cs = (Pattern.text "0" k cs ||
      Pattern.times (fun c => '1' ≤ c && c ≤ '9') 1 (Pattern.many digit k) cs) := by
    simp [canonicalNumber, Pattern.alt]
  rw [halternatives, Bool.or_eq_true, Pattern.text_iff, Pattern.times_iff]
  constructor
  · rintro (⟨rest, rfl, hk⟩ | ⟨t, rest, rfl, ht, hlength, hmany⟩)
    · exact ⟨0, rest, rfl, hk⟩
    · obtain ⟨c, rfl⟩ := List.length_eq_one_iff.mp hlength
      obtain ⟨u, rest', rfl, hu, -, -, hk⟩ := Pattern.repeated_iff.mp hmany
      have hfirst := ht c (List.mem_singleton_self c)
      simp only [Bool.and_eq_true, decide_eq_true_eq] at hfirst
      have hc : digit c = true := by
        simp only [digit, Bool.and_eq_true, decide_eq_true_eq]
        refine ⟨?_, hfirst.2⟩
        simp only [Char.le_def, UInt32.le_iff_toNat_le] at hfirst ⊢
        exact Nat.le_trans (by decide) hfirst.1
      have hne : c ≠ '0' := by
        rintro rfl
        exact absurd hfirst.1 (by decide)
      refine ⟨Nat.ofDigitChars 10 (c :: u) 0, rest', ?_, hk⟩
      rw [(toDigits_ofDigitChars hc hne hu).2]
      rfl
  · rintro ⟨n, rest, rfl, hk⟩
    rcases Nat.eq_zero_or_pos n with rfl | hpos
    · exact .inl ⟨rest, rfl, hk⟩
    · obtain ⟨c, u, hdigits⟩ := List.exists_cons_of_ne_nil (Nat.toDigits_ne_nil (n := n) (b := 10))
      have hall := digit_toDigits (n := n)
      rw [hdigits] at hall ⊢
      obtain ⟨hc, hu⟩ := List.forall_mem_cons.mp hall
      refine .inr ⟨[c], u ++ rest, rfl, ?_, rfl, Pattern.repeated_iff.mpr
        ⟨u, rest, rfl, hu, Nat.zero_le _, by simp, hk⟩⟩
      have hne : c ≠ '0' := toDigits_head hpos u hdigits
      simp only [List.mem_singleton, forall_eq, Bool.and_eq_true, decide_eq_true_eq]
      simp only [digit, Bool.and_eq_true, decide_eq_true_eq] at hc
      refine ⟨?_, hc.2⟩
      simp only [Char.le_def, UInt32.le_iff_toNat_le] at hc ⊢
      have hlo : 48 ≤ c.toNat := hc.1
      have hne' : c.toNat ≠ 48 := fun h => hne (Char.toNat_inj.mp h)
      show 49 ≤ c.toNat
      omega

theorem canonicalPattern_iff :
    canonicalPattern List.isEmpty cs = true ↔ ∃ v : Version, cs = v.text := by
  simp only [canonicalPattern, Pattern.seq_cons, Pattern.seq_nil, canonicalNumber_iff,
    Pattern.text_iff]
  constructor
  · rintro ⟨major, _, rfl, _, rfl, minor, _, rfl, _, rfl, patch, rest, rfl, hrest⟩
    rw [List.isEmpty_iff.mp hrest, List.append_nil]
    exact ⟨⟨major, minor, patch⟩, rfl⟩
  · rintro ⟨v, rfl⟩
    exact ⟨v.major, _, rfl, _, rfl, v.minor, _, rfl, _, rfl, v.patch, [],
      (List.append_nil _).symm, rfl⟩

theorem splitOn_text (v : Version) : v.text.splitOn '.' =
    [Nat.toDigits 10 v.major, Nat.toDigits 10 v.minor, Nat.toDigits 10 v.patch] := by
  have hdot : ∀ n, '.' ∉ Nat.toDigits 10 n := fun n hc => digit_ne (digit_toDigits _ hc) rfl rfl
  rw [Version.text, List.splitOn_append_cons_self_of_not_mem (hdot _),
    List.splitOn_append_cons_self_of_not_mem (hdot _), List.splitOn_eq_singleton (hdot _)]

theorem text_injective {w : Version} (h : v.text = w.text) : v = w := by
  have hdigits : ∀ {m n : Nat}, Nat.toDigits 10 m = Nat.toDigits 10 n → m = n := by
    intro m n heq
    have := congrArg (Nat.ofDigitChars 10 · 0) heq
    simpa only [Nat.ofDigitChars_ten_toDigits] using this
  have hparts := congrArg (List.splitOn '.') h
  rw [splitOn_text, splitOn_text] at hparts
  simp only [List.cons.injEq, and_true] at hparts
  obtain ⟨major, minor, patch⟩ := v
  obtain ⟨major', minor', patch'⟩ := w
  rw [Version.mk.injEq]
  exact ⟨hdigits hparts.1, hdigits hparts.2.1, hdigits hparts.2.2⟩

theorem number_toDigits {n : Nat} : number (Nat.toDigits 10 n) = Js.double n := by
  rw [number, Nat.ofDigitChars_toDigits (by omega) (by omega)]

theorem safe_iff {n : Nat} : safe (Js.double n) = true ↔ n < 2 ^ 53 := by
  rw [safe, decide_eq_true_iff, Js.maxSafeInteger]
  constructor
  · intro h
    by_contra hge
    have := Js.le_double (n := n) (by omega)
    omega
  · intro h
    rw [Js.double_eq_self (by omega)]
    omega

theorem version_iff : version cs = some v ↔ cs = v.text ∧ v.Safe := by
  unfold version
  by_cases hcs : canonicalPattern List.isEmpty cs = true
  · obtain ⟨w, rfl⟩ := canonicalPattern_iff.mp hcs
    rw [if_pos hcs, splitOn_text]
    simp only [List.map_cons, List.map_nil, number_toDigits, List.all_cons, List.all_nil,
      Bool.and_true, Bool.and_eq_true, safe_iff]
    change (if w.Safe then some _ else none) = some v ↔ _
    by_cases hsafe : w.Safe
    · have hdouble : ∀ n : Nat, n < 2 ^ 53 → (Js.double n).toNat = n := fun n hn => by
        rw [Js.double_eq_self (by omega)]
        rfl
      rw [if_pos hsafe, hdouble _ hsafe.1, hdouble _ hsafe.2.1, hdouble _ hsafe.2.2,
        Option.some.injEq]
      constructor
      · rintro rfl
        exact ⟨rfl, hsafe⟩
      · rintro ⟨htext, -⟩
        exact text_injective htext
    · rw [if_neg hsafe]
      refine iff_of_false nofun ?_
      rintro ⟨htext, hv⟩
      exact hsafe (text_injective htext ▸ hv)
  · rw [if_neg hcs]
    refine iff_of_false nofun ?_
    rintro ⟨rfl, -⟩
    exact hcs (canonicalPattern_iff.mpr ⟨v, rfl⟩)

/-- The text of a version has digits and dots, and begins with a digit. -/
theorem mem_text {c : Char} (hc : c ∈ v.text) : digit c = true ∨ c = '.' := by
  simp only [Version.text, List.mem_append, List.mem_cons] at hc
  rcases hc with h | h | h | h | h
  · exact .inl (digit_toDigits c h)
  · exact .inr h
  · exact .inl (digit_toDigits c h)
  · exact .inr h
  · exact .inl (digit_toDigits c h)

theorem text_cons (v : Version) : ∃ c cs, v.text = c :: cs ∧ digit c = true := by
  obtain ⟨c, cs, hdigits⟩ :=
    List.exists_cons_of_ne_nil (Nat.toDigits_ne_nil (n := v.major) (b := 10))
  have hc : digit c = true := digit_toDigits c (hdigits ▸ List.mem_cons_self ..)
  rw [Version.text, hdigits, List.cons_append]
  exact ⟨c, _, rfl, hc⟩

theorem numbersPattern_text (v : Version) : numbersPattern List.isEmpty v.text = true := by
  have hmany : ∀ {n : Nat} {k : List Char → Bool} {rest : List Char}, k rest = true →
      Pattern.many1 digit k (Nat.toDigits 10 n ++ rest) = true := by
    intro n k rest hk
    have hlength : 1 ≤ (Nat.toDigits 10 n).length := Nat.length_toDigits_pos
    exact Pattern.repeated_iff.mpr ⟨_, rest, rfl, digit_toDigits, hlength, nofun, hk⟩
  have hdot : ∀ {k : List Char → Bool} {rest : List Char}, k rest = true →
      Pattern.text "." k ('.' :: rest) = true := fun hk => Pattern.text_iff.mpr ⟨_, rfl, hk⟩
  have hlast : Pattern.many1 digit List.isEmpty (Nat.toDigits 10 v.patch ++ []) = true :=
    hmany rfl
  rw [List.append_nil] at hlast
  exact hmany (hdot (hmany (hdot hlast)))

/-! ## The text of a comparator -/

def Op.spellings : Op → List String
  | .ge => [">="]
  | .le => ["<="]
  | .gt => [">"]
  | .lt => ["<"]
  | .eq => ["=", ""]
  | .caret => ["^"]
  | .tilde => ["~"]

def Comparator.Written (c : Comparator) (term : List Char) : Prop :=
  c.version.Safe ∧ ∃ o ∈ c.op.spellings, term = chars o ++ c.version.text

theorem operator_spelled (cs : List Char) :
    ∃ o ∈ (operator cs).1.spellings, cs = chars o ++ (operator cs).2 := by
  unfold operator
  split
  · exact ⟨">=", List.mem_cons_self .., rfl⟩
  · exact ⟨"<=", List.mem_cons_self .., rfl⟩
  · exact ⟨">", List.mem_cons_self .., rfl⟩
  · exact ⟨"<", List.mem_cons_self .., rfl⟩
  · exact ⟨"=", List.mem_cons_self .., rfl⟩
  · exact ⟨"^", List.mem_cons_self .., rfl⟩
  · exact ⟨"~", List.mem_cons_self .., rfl⟩
  · exact ⟨"", List.mem_cons_of_mem _ (List.mem_singleton_self _), rfl⟩

theorem operator_append {op : Op} {o : String} (ho : o ∈ op.spellings) {c : Char} {cs : List Char}
    (hc : digit c = true) : operator (chars o ++ c :: cs) = (op, c :: cs) := by
  have hne : ∀ d ∈ ['>', '<', '=', '^', '~'], c ≠ d := by
    have hnone : ∀ d ∈ ['>', '<', '=', '^', '~'], digit d = false := by decide
    exact fun d hd => digit_ne hc (hnone d hd)
  simp only [List.forall_mem_cons] at hne
  obtain ⟨hgt, hlt, heq, hcaret, htilde, -⟩ := hne
  cases op with
  | ge | le | caret | tilde =>
      obtain rfl := List.mem_singleton.mp ho
      rfl
  | gt =>
      obtain rfl := List.mem_singleton.mp ho
      show operator ('>' :: c :: cs) = _
      simp [operator, heq]
  | lt =>
      obtain rfl := List.mem_singleton.mp ho
      show operator ('<' :: c :: cs) = _
      simp [operator, heq]
  | eq =>
      rcases List.mem_pair.mp ho with rfl | rfl
      · rfl
      · show operator (c :: cs) = _
        simp [operator, hgt, hlt, heq, hcaret, htilde]

theorem comparator_iff :
    comparator t = some c ↔ c.Written t := by
  constructor
  · intro h
    obtain ⟨o, ho, ht⟩ := operator_spelled t
    simp only [comparator] at h
    split at h
    next =>
      obtain ⟨v, hv, rfl⟩ := Option.map_eq_some_iff.mp h
      obtain ⟨htext, hsafe⟩ := version_iff.mp hv
      exact ⟨hsafe, o, ho, htext ▸ ht⟩
    next => cases h
  · rintro ⟨hsafe, o, ho, rfl⟩
    obtain ⟨d, ds, htext, hd⟩ := text_cons c.version
    have hoperator : operator (chars o ++ c.version.text) = (c.op, c.version.text) := by
      rw [htext]
      exact operator_append ho hd
    rw [comparator, hoperator]
    dsimp only
    rw [if_pos (numbersPattern_text c.version), version_iff.mpr ⟨rfl, hsafe⟩]
    rfl

/-! ## The layout of a range -/

def Blank (s : List Char) : Prop := ∀ c ∈ s, Js.whitespace c = true

def Gap (s : List Char) : Prop := s ≠ [] ∧ Blank s

def Bars (s : List Char) : Prop := ∃ l r, Blank l ∧ Blank r ∧ s = l ++ '|' :: '|' :: r

def WrittenGroup (group : List Char) (alternative : List Comparator) : Prop :=
  alternative.length ≤ 8 ∧
    ∃ terms, Js.Joined Gap terms group ∧ List.Forall₂ (fun t c => c.Written t) terms alternative

/-- A range is one to four alternatives, in a text that is short enough and has no control
characters. -/
structure Written (range : String) (alternatives : List (List Comparator)) : Prop where
  bounded : Js.length range ≤ 128
  printable : ∀ c ∈ Js.units range, control c = false
  few : alternatives.length ≤ 4
  layout : ∃ before body after groups, Js.units range = before ++ (body ++ after) ∧ Blank before ∧
    Blank after ∧ Js.Joined Bars groups body ∧ List.Forall₂ WrittenGroup groups alternatives

/-- A piece that begins and ends with a character which is not white space, and has no bar. -/
structure Tidy (t : List Char) : Prop where
  first : ∃ c cs, t = c :: cs ∧ Js.whitespace c = false
  last : ∃ cs c, t = cs ++ [c] ∧ Js.whitespace c = false
  bar : '|' ∉ t

/-- A piece without white space and bars. -/
def Solid (t : List Char) : Prop := t ≠ [] ∧ ∀ c ∈ t, Js.whitespace c = false ∧ c ≠ '|'

theorem dropWhile_blank {s : List Char} (hs : Blank s)
    (ht : ∃ c cs, t = c :: cs ∧ Js.whitespace c = false) (rest : List Char) :
    (s ++ (t ++ rest)).dropWhile Js.whitespace = t ++ rest := by
  obtain ⟨c, cs, rfl, hc⟩ := ht
  rw [List.dropWhile_append_of_pos hs, List.cons_append, List.dropWhile_cons_of_neg (by simp [hc])]

theorem Solid.tidy (h : Solid t) : Tidy t := by
  obtain ⟨hne, hall⟩ := h
  refine ⟨?_, ?_, fun hbar => (hall '|' hbar).2 rfl⟩
  · obtain ⟨c, cs, rfl⟩ := List.exists_cons_of_ne_nil hne
    exact ⟨c, cs, rfl, (hall c (List.mem_cons_self ..)).1⟩
  · exact ⟨t.dropLast, t.getLast hne, (List.dropLast_append_getLast hne).symm,
      (hall _ (List.getLast_mem hne)).1⟩

/-- Pieces that are solid, with blanks between them, are tidy. -/
theorem tidy_joined {cs : List Char} (h : Js.Joined Gap ts cs)
    (hts : ∀ t ∈ ts, Solid t) : Tidy cs := by
  induction h with
  | one t => exact (hts t (List.mem_singleton_self t)).tidy
  | @more t s rest ts hs hrest ih =>
      obtain ⟨hfirst, hothers⟩ := List.forall_mem_cons.mp hts
      obtain ⟨-, ⟨us, d, rfl, hd⟩, hbar⟩ := ih hothers
      obtain ⟨⟨c, vs, rfl, hc⟩, -, hbar'⟩ := hfirst.tidy
      refine ⟨⟨c, _, rfl, hc⟩, ⟨c :: vs ++ (s ++ us), d, by simp, hd⟩, ?_⟩
      simp only [List.mem_append, not_or]
      refine ⟨hbar', fun hmem => ?_, by simpa using hbar⟩
      exact absurd (hs.2 _ hmem) (by decide)

theorem ends_joined {cs : List Char} (h : Js.Joined Bars ts cs)
    (hts : ∀ t ∈ ts, Tidy t) : (∃ c rest, cs = c :: rest ∧ Js.whitespace c = false) ∧
      ∃ rest c, cs = rest ++ [c] ∧ Js.whitespace c = false := by
  induction h with
  | one t =>
      obtain ⟨hfirst, hlast, -⟩ := hts t (List.mem_singleton_self t)
      exact ⟨hfirst, hlast⟩
  | @more t s rest ts hs hrest ih =>
      obtain ⟨hfirst, hothers⟩ := List.forall_mem_cons.mp hts
      obtain ⟨-, us, d, rfl, hd⟩ := ih hothers
      obtain ⟨⟨c, vs, rfl, hc⟩, -, -⟩ := hfirst
      exact ⟨⟨c, _, rfl, hc⟩, c :: vs ++ (s ++ us), d, by simp, hd⟩

/-! ## Cutting it -/

theorem blank_takeWhile (cs : List Char) : Blank (cs.takeWhile Js.whitespace) :=
  fun _ hc => List.mem_takeWhile_imp hc

theorem gap_sound {cs rest : List Char} (h : gap cs = some rest) :
    ∃ s, Gap s ∧ cs = s ++ rest := by
  cases cs with
  | nil => cases h
  | cons c cs =>
      rw [gap] at h
      split at h
      next hc =>
        cases h
        refine ⟨c :: cs.takeWhile Js.whitespace, ⟨List.cons_ne_nil _ _, ?_⟩, ?_⟩
        · exact List.forall_mem_cons.mpr ⟨hc, blank_takeWhile cs⟩
        · rw [List.cons_append, List.takeWhile_append_dropWhile]
      next => cases h

theorem bars_sound {cs rest : List Char} (h : bars cs = some rest) :
    ∃ s, Bars s ∧ cs = s ++ rest := by
  unfold bars at h
  split at h
  next rest' hrest =>
    cases h
    refine ⟨_, ⟨cs.takeWhile Js.whitespace, rest'.takeWhile Js.whitespace, blank_takeWhile _,
      blank_takeWhile _, rfl⟩, ?_⟩
    rw [List.append_assoc, List.cons_append, List.cons_append, List.takeWhile_append_dropWhile,
      ← hrest, List.takeWhile_append_dropWhile]
  next => cases h

/-- Solid terms come back. -/
theorem split_gap {cs : List Char} (h : Js.Joined Gap ts cs)
    (hts : ∀ t ∈ ts, Solid t) : Js.split gap cs = ts := by
  refine Js.split_joined ?_ ?_ h hts
  · intro t v rest hsolid hv
    obtain ⟨c, cs, rfl⟩ := List.exists_cons_of_ne_nil hv
    have hc := (hsolid.2 c (by simp)).1
    rw [List.cons_append, gap, if_neg (by simp [hc])]
  · intro s t rest hs ht
    refine ⟨hs.1, ?_⟩
    obtain ⟨c, s, rfl⟩ := List.exists_cons_of_ne_nil hs.1
    obtain ⟨hc, hblank⟩ := List.forall_mem_cons.mp hs.2
    rw [List.cons_append, gap, if_pos hc, dropWhile_blank hblank ht.tidy.first]

theorem split_bars {cs : List Char} (h : Js.Joined Bars ts cs)
    (hts : ∀ t ∈ ts, Tidy t) : Js.split bars cs = ts := by
  refine Js.split_joined ?_ ?_ h hts
  · intro t v rest htidy hv
    obtain ⟨us, d, hlast, hd⟩ := htidy.last
    have hmem : d ∈ v := by
      have hends := congrArg List.getLast? hlast
      rw [List.getLast?_append_of_ne_nil _ hv, List.getLast?_concat] at hends
      exact List.mem_of_getLast? hends
    have hne : v.dropWhile Js.whitespace ≠ [] := by
      intro hnil
      have := List.dropWhile_eq_nil_iff.mp hnil d hmem
      rw [hd] at this
      cases this
    -- so what stands first after the white space is a character of the piece, and no bar
    obtain ⟨c, cs, hdrop⟩ := List.exists_cons_of_ne_nil hne
    have hc : c ≠ '|' := by
      rintro rfl
      have hbar : '|' ∈ v := (List.dropWhile_suffix _).subset (hdrop ▸ List.mem_cons_self ..)
      exact htidy.bar (List.mem_append_right t hbar)
    rw [bars, List.dropWhile_append, hdrop]
    simp [hc]
  · intro s t rest hs ht
    obtain ⟨l, r, hl, hr, rfl⟩ := hs
    refine ⟨by simp, ?_⟩
    have hbar : ∃ c cs, ('|' :: '|' :: r) = c :: cs ∧ Js.whitespace c = false := ⟨_, _, rfl, rfl⟩
    rw [List.append_assoc, bars, dropWhile_blank hl hbar]
    show some ((r ++ (t ++ rest)).dropWhile Js.whitespace) = _
    rw [dropWhile_blank hr ht.first]

/-! ## What `parse` accepts -/

theorem written_solid (h : c.Written t) : Solid t := by
  obtain ⟨-, o, ho, rfl⟩ := h
  obtain ⟨d, ds, htext, -⟩ := text_cons c.version
  have hspelling : ∀ op : Op, ∀ o ∈ op.spellings, ∀ c ∈ chars o,
      Js.whitespace c = false ∧ c ≠ '|' := by
    intro op
    cases op <;> decide
  have hdigit : ∀ d, digit d = true → Js.whitespace d = false ∧ d ≠ '|' := by
    intro d hd
    refine ⟨?_, digit_ne hd rfl⟩
    obtain ⟨n, hn, rfl, -⟩ := digit_value hd
    have hnone : ∀ n < 10, Js.whitespace (Nat.digitChar n) = false := by decide
    exact hnone n hn
  refine ⟨by simp [htext], fun d hd => ?_⟩
  rcases List.mem_append.mp hd with hmem | hmem
  · exact hspelling c.op o ho d hmem
  · rcases mem_text hmem with hmem | rfl
    · exact hdigit d hmem
    · decide

theorem forall₂_of_isSome
    (h : ∀ t ∈ ts, (comparator t).isSome = true) :
    List.Forall₂ (fun t c => Comparator.Written c t) ts (ts.filterMap comparator) := by
  induction ts with
  | nil => exact .nil
  | cons t ts ih =>
      obtain ⟨ht, hrest⟩ := List.forall_mem_cons.mp h
      obtain ⟨c, hc⟩ := Option.isSome_iff_exists.mp ht
      rw [List.filterMap_cons_some hc]
      exact .cons (comparator_iff.mp hc) (ih hrest)

theorem filterMap_of_forall₂ {cs : List Comparator}
    (h : List.Forall₂ (fun t c => Comparator.Written c t) ts cs) :
    ts.filterMap comparator = cs ∧ ∀ t ∈ ts, (comparator t).isSome = true ∧ Solid t := by
  induction h with
  | nil => exact ⟨rfl, nofun⟩
  | cons hc hrest ih =>
      have hsome := comparator_iff.mpr hc
      rw [List.filterMap_cons_some hsome, ih.1]
      exact ⟨rfl, List.forall_mem_cons.mpr ⟨⟨by rw [hsome]; rfl, written_solid hc⟩, ih.2⟩⟩

/-- What `parse` makes of an alternative. -/
def readGroup (group : List Char) : List (Option Comparator) := (Js.split gap group).map comparator

theorem group_iff {group : List Char} {alternative : List Comparator} :
    ((readGroup group).length ≤ 8 ∧ (readGroup group).all Option.isSome = true) ∧
      (readGroup group).filterMap id = alternative ↔ WrittenGroup group alternative := by
  rw [readGroup, List.length_map, List.all_map, List.all_eq_true, List.filterMap_map]
  constructor
  · rintro ⟨⟨hlength, hall⟩, rfl⟩
    have hwritten := forall₂_of_isSome hall
    exact ⟨hwritten.length_eq ▸ hlength, _, Js.joined_split (fun _ _ => gap_sound) group, hwritten⟩
  · rintro ⟨hlength, terms, hjoined, hwritten⟩
    obtain ⟨hfilter, hterms⟩ := filterMap_of_forall₂ hwritten
    rw [split_gap hjoined fun t ht => (hterms t ht).2]
    exact ⟨⟨hwritten.length_eq ▸ hlength, fun t ht => (hterms t ht).1⟩, hfilter⟩

theorem WrittenGroup.tidy {group : List Char} {alternative : List Comparator}
    (h : WrittenGroup group alternative) : Tidy group := by
  obtain ⟨-, terms, hjoined, hwritten⟩ := h
  exact tidy_joined hjoined fun t ht => ((filterMap_of_forall₂ hwritten).2 t ht).2

theorem strip_layout (l : List Char) : ∃ before after, Blank before ∧ Blank after ∧
    l = before ++ (Js.strip Js.whitespace l ++ after) := by
  refine ⟨l.takeWhile Js.whitespace, (l.dropWhile Js.whitespace).rtakeWhile Js.whitespace,
    blank_takeWhile l, fun c hc => List.mem_rtakeWhile_imp hc, ?_⟩
  rw [Js.strip, List.rdropWhile_append_rtakeWhile, List.takeWhile_append_dropWhile]

theorem strip_eq {before body after : List Char} (hbefore : Blank before) (hafter : Blank after)
    (hfirst : ∃ c cs, body = c :: cs ∧ Js.whitespace c = false)
    (hlast : ∃ cs c, body = cs ++ [c] ∧ Js.whitespace c = false) :
    Js.strip Js.whitespace (before ++ (body ++ after)) = body := by
  obtain ⟨cs, c, rfl, hc⟩ := hlast
  rw [Js.strip, dropWhile_blank hbefore hfirst, List.rdropWhile, List.reverse_append,
    List.dropWhile_append_of_pos fun d hd => hafter d (List.mem_reverse.mp hd), List.reverse_append,
    List.reverse_singleton, List.singleton_append, List.dropWhile_cons_of_neg (by simp [hc])]
  simp

theorem forall₂_readGroup {groups : List (List Char)}
    (h : ∀ group ∈ groups, (readGroup group).length ≤ 8 ∧
      (readGroup group).all Option.isSome = true) :
    List.Forall₂ WrittenGroup groups (groups.map fun group => (readGroup group).filterMap id) := by
  rw [List.forall₂_map_right_iff, List.forall₂_same]
  exact fun group hgroup => group_iff.mp ⟨h group hgroup, rfl⟩

theorem map_readGroup {groups : List (List Char)} {alternatives : List (List Comparator)}
    (h : List.Forall₂ WrittenGroup groups alternatives) :
    groups.map (fun group => (readGroup group).filterMap id) = alternatives ∧
      ∀ group ∈ groups, ((readGroup group).length ≤ 8 ∧
        (readGroup group).all Option.isSome = true) ∧ Tidy group := by
  induction h with
  | nil => exact ⟨rfl, nofun⟩
  | cons hgroup hrest ih =>
      obtain ⟨hread, halternative⟩ := group_iff.mpr hgroup
      rw [List.map_cons, ih.1]
      exact ⟨congrArg (· :: _) halternative, List.forall_mem_cons.mpr ⟨⟨hread, hgroup.tidy⟩, ih.2⟩⟩

/-- The grammar is what `parse` accepts, and the alternatives are what it returns. -/
theorem parse_iff {range : String} {alternatives : List (List Comparator)} :
    parse range = some alternatives ↔ Written range alternatives := by
  have hparse : parse range = some alternatives ↔
      (Js.strip Js.whitespace (Js.units range) ≠ [] ∧ Js.length range ≤ 128 ∧
        ∀ c ∈ Js.units range, control c = false) ∧
      (Js.split bars (Js.strip Js.whitespace (Js.units range))).length ≤ 4 ∧
      (∀ group ∈ Js.split bars (Js.strip Js.whitespace (Js.units range)),
        (readGroup group).length ≤ 8 ∧ (readGroup group).all Option.isSome = true) ∧
      (Js.split bars (Js.strip Js.whitespace (Js.units range))).map
        (fun group => (readGroup group).filterMap id) = alternatives := by
    unfold parse
    dsimp only
    split
    next hrefused =>
      refine iff_of_false nofun fun h => ?_
      simp only [Bool.or_eq_true, List.isEmpty_iff, decide_eq_true_eq, List.any_eq_true] at hrefused
      rcases hrefused with (hempty | hlong) | ⟨c, hc, hcontrol⟩
      · exact h.1.1 hempty
      · exact Nat.not_lt.mpr h.1.2.1 hlong
      · rw [h.1.2.2 c hc] at hcontrol
        cases hcontrol
    next htaken =>
      simp only [Bool.or_eq_true, List.isEmpty_iff, decide_eq_true_eq, List.any_eq_true, not_or,
        not_exists, not_and, Bool.not_eq_true, Nat.not_lt] at htaken
      obtain ⟨⟨hne, hlength⟩, hcontrol⟩ := htaken
      rw [and_iff_right ⟨hne, hlength, hcontrol⟩]
      split
      next hmany => exact iff_of_false nofun fun h => Nat.not_lt.mpr h.1 hmany
      next hfew =>
        rw [and_iff_right (Nat.not_lt.mp hfew), List.all_map, List.map_map]
        simp only [List.all_eq_true, Function.comp_apply, Bool.and_eq_true, decide_eq_true_eq]
        split
        next hread =>
          rw [Option.some.injEq]
          exact ⟨fun h => ⟨hread, h⟩, fun h => h.2⟩
        next hunread => exact iff_of_false nofun fun h => hunread h.1
  rw [hparse]
  constructor
  · rintro ⟨⟨hne, hlength, hcontrol⟩, hfew, hread, rfl⟩
    obtain ⟨before, after, hbefore, hafter, hunits⟩ := strip_layout (Js.units range)
    refine ⟨hlength, hcontrol, by rwa [List.length_map], before, _, after, _, hunits, hbefore,
      hafter, Js.joined_split (fun _ _ => bars_sound) _, forall₂_readGroup hread⟩
  · rintro ⟨hlength, hcontrol, hfew, before, body, after, groups, hunits, hbefore, hafter, hjoined,
      hwritten⟩
    obtain ⟨hmap, hgroups⟩ := map_readGroup hwritten
    obtain ⟨hfirst, hlast⟩ := ends_joined hjoined fun group hgroup => (hgroups group hgroup).2
    have hstrip : Js.strip Js.whitespace (Js.units range) = body := by
      rw [hunits, strip_eq hbefore hafter hfirst hlast]
    rw [hstrip, split_bars hjoined fun group hgroup => (hgroups group hgroup).2]
    refine ⟨⟨?_, hlength, hcontrol⟩, ?_, fun group hgroup => (hgroups group hgroup).1, hmap⟩
    · obtain ⟨c, cs, rfl, -⟩ := hfirst
      exact List.cons_ne_nil c cs
    · rw [hwritten.length_eq]
      exact hfew

/-- A range means what it says.  A version satisfies a range exactly when it is a canonical
version with safe parts, the range is in the grammar, and the version is in every interval of
one of its alternatives; and then the range is one that `validHostCompatibility` accepts. -/
theorem satisfied_iff (actualVersion range : String) :
    (hostCompatibilitySatisfied actualVersion range = true ↔
      ∃ (v : Version) (alternatives : List (List Comparator)),
        Js.units actualVersion = v.text ∧ v.Safe ∧ Written range alternatives ∧
        v.key ∈ admitted alternatives) ∧
    (hostCompatibilitySatisfied actualVersion range = true →
      validHostCompatibility range = true) := by
  have hsatisfied : hostCompatibilitySatisfied actualVersion range = true ↔
      ∃ v alternatives, version (Js.units actualVersion) = some v ∧
        parse range = some alternatives ∧ v.key ∈ admitted alternatives := by
    unfold hostCompatibilitySatisfied
    split
    next v alternatives hv hparse =>
      have hmeaning : (alternatives.any fun group => group.all fun c => c.admits v) = true ↔
          v.key ∈ admitted alternatives := by
        simp only [List.any_eq_true, List.all_eq_true, admits_iff]
        rfl
      rw [hmeaning]
      constructor
      · exact fun h => ⟨v, alternatives, hv, hparse, h⟩
      · rintro ⟨w, groups, hw, hgroups, h⟩
        rw [hv, Option.some.injEq] at hw
        rw [hparse, Option.some.injEq] at hgroups
        exact hw ▸ hgroups ▸ h
    next hnone =>
      refine iff_of_false Bool.false_ne_true ?_
      rintro ⟨v, alternatives, hv, hparse, -⟩
      exact hnone v alternatives hv hparse
  constructor
  · rw [hsatisfied]
    simp only [version_iff, parse_iff, and_assoc]
  · intro h
    obtain ⟨-, alternatives, -, hparse, -⟩ := hsatisfied.mp h
    rw [validHostCompatibility, hparse]
    rfl

/-- A caret range of version 0 ends with the minor part, and white space is free between the
alternatives. -/
example : hostCompatibilitySatisfied "0.2.9" " ^0.2.3 >=0.2.5||~3.1.0" = true ∧
    hostCompatibilitySatisfied "0.3.0" "^0.2.3" = false := by
  decide

end Host
