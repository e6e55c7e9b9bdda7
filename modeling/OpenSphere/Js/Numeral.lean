import Mathlib.Data.List.DropRight
import Mathlib.Data.Nat.Find
import OpenSphere.Js.Double
import OpenSphere.Sql.Digits

/-!
# Numerals

The text of a number has the fewest digits that are rounded to it, and of those with so many
digits the nearest.  A numeral is such a text in its parts, and is read as the number that its
value is rounded to.

`scan_text` says that a numeral comes back from its text, and `read_numeral` that the numeral of
a number is read as that number.
-/

open Sql (digit)

namespace Js

variable {ds rest : List Char} {x : ℚ} {n : Numeral}

/-! ## The shortest decimal -/

/-- `10 ^ (point x - 1) ≤ x < 10 ^ point x`. -/
def point (x : ℚ) : ℤ := Int.log 10 x + 1

/-- A decimal of the digits that is rounded to `x`, the nearest if it is. -/
def decimalOf (x : ℚ) (e : ℤ) : Option ℤ :=
  [nearest (x / 10 ^ e), ⌊x / 10 ^ e⌋, ⌊x / 10 ^ e⌋ + 1].find? fun s =>
    decide (0 < s ∧ rounded (s * 10 ^ e) = x)

theorem ten_zpow_pos (e : ℤ) : (0 : ℚ) < 10 ^ e := zpow_pos (by norm_num) e

theorem decimalOf_some {e s : ℤ} (h : decimalOf x e = some s) :
    0 < s ∧ rounded (s * 10 ^ e) = x := by
  unfold decimalOf at h
  have hfound := List.find?_some h
  exact of_decide_eq_true hfound

theorem exists_decimal (h : Representable x) (hpos : 0 < x) :
    ∃ k : ℕ, 0 < k ∧ (decimalOf x (point x - k)).isSome := by
  obtain ⟨m, e, hm, he, heq⟩ := h
  -- enough digits for the last place of the number, and one at least
  refine ⟨(point x + 1074).toNat + 1, Nat.succ_pos _, ?_⟩
  generalize hp : point x - ((point x + 1074).toNat + 1 : ℕ) = p
  have hle : p ≤ -1074 := by omega
  have hinteger : ((m * 2 ^ (e - p).toNat * 5 ^ (-p).toNat : ℤ) : ℚ) = x / 10 ^ p := by
    rw [eq_div_iff (ten_zpow_pos p).ne', heq]
    push_cast
    rw [← zpow_natCast, ← zpow_natCast, Int.toNat_of_nonneg (by omega),
      Int.toNat_of_nonneg (by omega), show (10 : ℚ) = 2 * 5 by norm_num, mul_zpow,
      zpow_sub₀ (by norm_num), zpow_neg]
    have htwo := (two_zpow_pos p).ne'
    have hfive : (5 : ℚ) ^ p ≠ 0 := (zpow_pos (by norm_num) p).ne'
    field_simp
  have hs : 0 < m * 2 ^ (e - p).toNat * 5 ^ (-p).toNat := by
    have hscaled : (0 : ℚ) < x / 10 ^ p := div_pos hpos (ten_zpow_pos p)
    rw [← hinteger] at hscaled
    exact_mod_cast hscaled
  have hx : rounded ((x / 10 ^ p) * 10 ^ p) = x := by
    rw [div_mul_cancel₀ _ (ten_zpow_pos p).ne']
    exact rounded_of_representable ⟨m, e, hm, he, heq⟩
  rw [decimalOf, List.find?_isSome]
  refine ⟨_, List.mem_cons_self .., decide_eq_true ?_⟩
  rw [← hinteger, nearest_intCast]
  rw [← hinteger] at hx
  exact ⟨hs, hx⟩

/-- How many digits are enough. -/
def precision (x : ℚ) (h : Representable x) (hpos : 0 < x) : ℕ := Nat.find (exists_decimal h hpos)

def lastPlace (x : ℚ) (h : Representable x) (hpos : 0 < x) : ℤ := point x - precision x h hpos

def shortest (x : ℚ) (h : Representable x) (hpos : 0 < x) : ℕ :=
  ((decimalOf x (lastPlace x h hpos)).getD 0).toNat

theorem shortest_spec (h : Representable x) (hpos : 0 < x) :
    0 < shortest x h hpos ∧ rounded (shortest x h hpos * 10 ^ lastPlace x h hpos) = x := by
  have hsome := (Nat.find_spec (exists_decimal h hpos)).2
  obtain ⟨s, hs⟩ := Option.isSome_iff_exists.mp hsome
  have hshortest : shortest x h hpos = s.toNat := by
    show ((decimalOf x _).getD 0).toNat = _
    rw [lastPlace, precision, hs, Option.getD_some]
  obtain ⟨hs0, hrounded⟩ := decimalOf_some hs
  rw [hshortest]
  refine ⟨by omega, ?_⟩
  have hcast : ((s.toNat : ℕ) : ℚ) = (s : ℚ) := by
    rw [← Int.cast_natCast, Int.toNat_of_nonneg hs0.le]
  rw [hcast]
  exact hrounded

/-! ## Numerals -/

structure Numeral where
  whole : List Char
  fraction : List Char
  power : Option ℤ

def Numeral.value (n : Numeral) : ℚ :=
  (Nat.ofDigitChars 10 (n.whole ++ n.fraction) 0 : ℕ) * 10 ^ (n.power.getD 0 - n.fraction.length)

def fractionText (ds : List Char) : List Char := if ds = [] then [] else '.' :: ds

def powerText : Option ℤ → List Char
  | none => []
  | some p => 'e' :: (if p < 0 then '-' else '+') :: Nat.toDigits 10 p.natAbs

def Numeral.text (n : Numeral) : List Char :=
  n.whole ++ (fractionText n.fraction ++ powerText n.power)

/-- The numeral of `ds * 10 ^ (n - ds.length)`. -/
def Numeral.ofDigits (ds : List Char) (n : ℤ) : Numeral :=
  if ds.length ≤ n ∧ n ≤ 21 then ⟨ds ++ List.replicate (n - ds.length).toNat '0', [], none⟩
  else if 0 < n ∧ n ≤ 21 then ⟨ds.take n.toNat, ds.drop n.toNat, none⟩
  else if -6 < n ∧ n ≤ 0 then ⟨['0'], List.replicate (-n).toNat '0' ++ ds, none⟩
  else ⟨ds.take 1, ds.drop 1, some (n - 1)⟩

/-- Digits without the zeros at the end. -/
def significant (ds : List Char) : List Char := ds.rdropWhile (· == '0')

def Numeral.ofRat (x : ℚ) (h : Representable x) (hpos : 0 < x) : Numeral :=
  let ds := Nat.toDigits 10 (shortest x h hpos)
  Numeral.ofDigits (significant ds) (lastPlace x h hpos + ds.length)

/-- `String(x)`. -/
def Double.text (x : Double) : List Char :=
  if h : x.value = 0 then ['0']
  else
    (if x.value < 0 then ['-'] else []) ++
      (Numeral.ofRat |x.value| (representable_abs x.representable) (abs_pos.mpr h)).text

/-! ## Their values -/

theorem ofDigitChars_zeros (n : ℕ) (ds : List Char) :
    Nat.ofDigitChars 10 (List.replicate n '0' ++ ds) 0 = Nat.ofDigitChars 10 ds 0 := by
  rw [Nat.ofDigitChars_append, Nat.ofDigitChars_replicate_zero, Nat.mul_zero]

theorem ofDigitChars_shift (ds : List Char) (n : ℕ) :
    Nat.ofDigitChars 10 (ds ++ List.replicate n '0') 0 = Nat.ofDigitChars 10 ds 0 * 10 ^ n := by
  rw [Nat.ofDigitChars_append, Nat.ofDigitChars_replicate_zero, Nat.mul_comm]

theorem value_ofDigits (hne : ds ≠ []) (n : ℤ) :
    (Numeral.ofDigits ds n).value = (Nat.ofDigitChars 10 ds 0 : ℕ) * 10 ^ (n - ds.length) := by
  unfold Numeral.ofDigits
  split_ifs with hinteger hpoint hsmall
  · rw [Numeral.value, List.append_nil, ofDigitChars_shift]
    push_cast
    rw [mul_assoc, ← zpow_natCast, Int.toNat_of_nonneg (by omega), ← zpow_add₀ (by norm_num)]
    simp
  · rw [Numeral.value, List.take_append_drop, List.length_drop]
    congr 2
    simp only [Option.getD_none]
    omega
  · rw [Numeral.value]
    have hzeros : ['0'] ++ (List.replicate (-n).toNat '0' ++ ds) =
        List.replicate ((-n).toNat + 1) '0' ++ ds := rfl
    rw [hzeros, ofDigitChars_zeros, List.length_append, List.length_replicate]
    congr 2
    simp only [Option.getD_none]
    omega
  · have hlength : 0 < ds.length := List.length_pos_iff.mpr hne
    rw [Numeral.value, List.take_append_drop, List.length_drop]
    congr 2
    simp only [Option.getD_some]
    omega

theorem exists_zeros (ds : List Char) :
    ∃ n, ds = significant ds ++ List.replicate n '0' := by
  induction ds using List.reverseRecOn with
  | nil => exact ⟨0, rfl⟩
  | append_singleton ds d ih =>
      obtain ⟨n, hn⟩ := ih
      by_cases hd : d = '0'
      · refine ⟨n + 1, ?_⟩
        rw [significant, List.rdropWhile_concat_pos _ _ _ (by simp [hd]), List.replicate_succ',
          ← List.append_assoc]
        exact congrArg₂ _ hn (by rw [hd])
      · refine ⟨0, ?_⟩
        rw [significant, List.rdropWhile_concat_neg _ _ _ (by simp [hd]), List.replicate_zero,
          List.append_nil]

/-- The digits of a number other than 0 are not all zeros. -/
theorem significant_ne_nil {n : ℕ} (hn : 0 < n) : significant (Nat.toDigits 10 n) ≠ [] := by
  intro hnil
  obtain ⟨k, hk⟩ := exists_zeros (Nat.toDigits 10 n)
  have hzero := Nat.ofDigitChars_ten_toDigits (n := n)
  rw [hk, hnil, List.nil_append, Nat.ofDigitChars_replicate_zero, Nat.mul_zero] at hzero
  omega

theorem value_ofRat (h : Representable x) (hpos : 0 < x) :
    (Numeral.ofRat x h hpos).value = shortest x h hpos * 10 ^ lastPlace x h hpos := by
  have hs := (shortest_spec h hpos).1
  obtain ⟨k, hk⟩ := exists_zeros (Nat.toDigits 10 (shortest x h hpos))
  have hvalue := Nat.ofDigitChars_ten_toDigits (n := shortest x h hpos)
  have hlength := congrArg List.length hk
  rw [List.length_append, List.length_replicate] at hlength
  rw [hk, ofDigitChars_shift] at hvalue
  rw [Numeral.ofRat, value_ofDigits (significant_ne_nil hs), hlength]
  conv_rhs => rw [← hvalue]
  push_cast
  rw [mul_assoc, ← zpow_natCast, ← zpow_add₀ (by norm_num)]
  congr 2
  omega

/-! ## Reading -/

def scanDigits (cs : List Char) : Option (List Char × List Char) :=
  if cs.takeWhile digit = [] then none else some (cs.takeWhile digit, cs.dropWhile digit)

def scanWhole : List Char → Option (List Char × List Char)
  | '0' :: cs => some (['0'], cs)
  | cs => scanDigits cs

def scanFraction : List Char → Option (List Char × List Char)
  | '.' :: cs => scanDigits cs
  | cs => some ([], cs)

def scanSign : List Char → Bool × List Char
  | '-' :: cs => (true, cs)
  | '+' :: cs => (false, cs)
  | cs => (false, cs)

def scanPower : List Char → Option (Option ℤ × List Char)
  | [] => some (none, [])
  | c :: cs =>
      if c = 'e' ∨ c = 'E' then do
        let (negative, cs) := scanSign cs
        let (ds, cs) ← scanDigits cs
        let p : ℤ := Nat.ofDigitChars 10 ds 0
        return (some (if negative then -p else p), cs)
      else some (none, c :: cs)

/-- A numeral of JSON without its sign, and the text after it. -/
def scanNumeral (cs : List Char) : Option (Numeral × List Char) := do
  let (whole, cs) ← scanWhole cs
  let (fraction, cs) ← scanFraction cs
  let (power, cs) ← scanPower cs
  return (⟨whole, fraction, power⟩, cs)

inductive Number where
  | finite (x : Double)
  | infinite (negative : Bool)
deriving DecidableEq

def Number.ofRat (negative : Bool) (x : ℚ) : Number :=
  if h : |rounded x| < 2 ^ 1024 then
    .finite (if negative then ⟨-rounded x, (rounded_representable x).neg, by rwa [abs_neg]⟩
      else ⟨rounded x, rounded_representable x, h⟩)
  else .infinite negative

def scanNumber : List Char → Option (Number × List Char)
  | '-' :: cs => (scanNumeral cs).map fun (n, rest) => (Number.ofRat true n.value, rest)
  | cs => (scanNumeral cs).map fun (n, rest) => (Number.ofRat false n.value, rest)

structure Numeral.Proper (n : Numeral) : Prop where
  whole : ∀ c ∈ n.whole, digit c = true
  head : n.whole = ['0'] ∨ ∃ c cs, n.whole = c :: cs ∧ c ≠ '0'
  fraction : ∀ c ∈ n.fraction, digit c = true

def Apart (cs : List Char) : Prop :=
  ∀ c ∈ cs.head?, digit c = false ∧ c ≠ '.' ∧ c ≠ 'e' ∧ c ≠ 'E'

theorem scanDigits_append (hds : ∀ c ∈ ds, digit c = true) (hne : ds ≠ [])
    (hrest : ∀ c ∈ rest.head?, digit c = false) : scanDigits (ds ++ rest) = some (ds, rest) := by
  have htake : rest.takeWhile digit = [] := by
    cases rest with
    | nil => rfl
    | cons c cs => rw [List.takeWhile_cons, hrest c rfl]; rfl
  have hdrop : rest.dropWhile digit = rest := by
    cases rest with
    | nil => rfl
    | cons c cs => rw [List.dropWhile_cons, hrest c rfl]; rfl
  rw [scanDigits, List.takeWhile_append_of_pos hds, List.dropWhile_append_of_pos hds, htake, hdrop,
    List.append_nil, if_neg hne]

theorem scanWhole_append (h : n.Proper)
    (hrest : ∀ c ∈ rest.head?, digit c = false) :
    scanWhole (n.whole ++ rest) = some (n.whole, rest) := by
  rcases h.head with hzero | ⟨c, cs, hcs, hc⟩
  · rw [hzero]
    rfl
  · have hdigits := scanDigits_append h.whole (by simp [hcs]) hrest
    rw [hcs, List.cons_append] at hdigits ⊢
    unfold scanWhole
    split
    next cs' heq => exact absurd (List.head_eq_of_cons_eq heq) hc
    next => exact hdigits

theorem scanFraction_append (hds : ∀ c ∈ ds, digit c = true)
    (hrest : ∀ c ∈ rest.head?, digit c = false ∧ c ≠ '.') :
    scanFraction (fractionText ds ++ rest) = some (ds, rest) := by
  by_cases hnil : ds = []
  · rw [fractionText, if_pos hnil, hnil, List.nil_append]
    unfold scanFraction
    split
    next cs => exact absurd rfl (hrest '.' rfl).2
    next => rfl
  · rw [fractionText, if_neg hnil]
    exact scanDigits_append hds hnil fun c hc => (hrest c hc).1

theorem scanPower_append (p : Option ℤ) (hrest : Apart rest) :
    scanPower (powerText p ++ rest) = some (p, rest) := by
  cases p with
  | none =>
      cases rest with
      | nil => rfl
      | cons c cs =>
          obtain ⟨-, -, he, hE⟩ := hrest c rfl
          rw [powerText, List.nil_append, scanPower, if_neg (by simp [he, hE])]
  | some p =>
      have hdigits : scanDigits (Nat.toDigits 10 p.natAbs ++ rest) =
          some (Nat.toDigits 10 p.natAbs, rest) :=
        scanDigits_append Sql.digit_toDigits Nat.toDigits_ne_nil fun c hc => (hrest c hc).1
      rw [powerText, List.cons_append, List.cons_append, scanPower, if_pos (.inl rfl)]
      by_cases hp : p < 0
      · rw [if_pos hp, scanSign]
        simp only [hdigits, Nat.ofDigitChars_ten_toDigits, Option.bind_eq_bind, Option.bind_some,
          if_true, Option.pure_def]
        congr 3
        omega
      · rw [if_neg hp, scanSign]
        simp only [hdigits, Nat.ofDigitChars_ten_toDigits, Option.bind_eq_bind, Option.bind_some,
          Bool.false_eq_true, if_false, Option.pure_def]
        congr 3
        omega

theorem scan_text (h : n.Proper) (hrest : Apart rest) :
    scanNumeral (n.text ++ rest) = some (n, rest) := by
  have hpower : ∀ c ∈ (powerText n.power ++ rest).head?, digit c = false ∧ c ≠ '.' := by
    intro c hc
    cases hp : n.power with
    | none =>
        rw [hp, powerText, List.nil_append] at hc
        exact ⟨(hrest c hc).1, (hrest c hc).2.1⟩
    | some p =>
        rw [hp] at hc
        cases hc
        decide
  have hfraction : ∀ c ∈ (fractionText n.fraction ++ (powerText n.power ++ rest)).head?,
      digit c = false := by
    intro c hc
    by_cases hnil : n.fraction = []
    · rw [fractionText, if_pos hnil, List.nil_append] at hc
      exact (hpower c hc).1
    · rw [fractionText, if_neg hnil] at hc
      cases hc
      rfl
  rw [Numeral.text, List.append_assoc, List.append_assoc, scanNumeral,
    scanWhole_append h hfraction, Option.bind_eq_bind, Option.bind_some]
  dsimp only
  rw [scanFraction_append h.fraction hpower, Option.bind_some]
  dsimp only
  rw [scanPower_append n.power hrest]
  rfl

/-! ## The round trip -/

theorem proper_ofDigits (hds : ∀ c ∈ ds, digit c = true) {c : Char}
    {cs : List Char} (hcs : ds = c :: cs) (hc : c ≠ '0') (n : ℤ) :
    (Numeral.ofDigits ds n).Proper := by
  have hzeros : ∀ k, ∀ c ∈ List.replicate k '0', digit c = true := by
    intro k c hc
    rw [List.eq_of_mem_replicate hc]
    rfl
  unfold Numeral.ofDigits
  split_ifs with hinteger hpoint hsmall
  · refine ⟨?_, .inr ⟨c, cs ++ List.replicate _ '0', by rw [hcs]; rfl, hc⟩, fun _ h => nomatch h⟩
    intro d hd
    rcases List.mem_append.mp hd with hd | hd
    · exact hds d hd
    · exact hzeros _ d hd
  · have htake : ds.take n.toNat = c :: cs.take (n.toNat - 1) := by
      rw [hcs, List.take_cons (by omega)]
    exact ⟨fun d hd => hds d (List.mem_of_mem_take hd), .inr ⟨c, _, htake, hc⟩,
      fun d hd => hds d (List.mem_of_mem_drop hd)⟩
  · refine ⟨hzeros 1, .inl rfl, ?_⟩
    intro d hd
    rcases List.mem_append.mp hd with hd | hd
    · exact hzeros _ d hd
    · exact hds d hd
  · exact ⟨fun d hd => hds d (List.mem_of_mem_take hd), .inr ⟨c, [], by rw [hcs]; rfl, hc⟩,
      fun d hd => hds d (List.mem_of_mem_drop hd)⟩

theorem proper_ofRat (h : Representable x) (hpos : 0 < x) :
    (Numeral.ofRat x h hpos).Proper := by
  have hs := (shortest_spec h hpos).1
  obtain ⟨c, cs, hcs⟩ := List.exists_cons_of_ne_nil (significant_ne_nil hs)
  have hprefix : significant (Nat.toDigits 10 (shortest x h hpos)) <+: _ :=
    List.rdropWhile_prefix _ _
  obtain ⟨ds, hds⟩ := hprefix
  rw [hcs] at hds
  have hc := Sql.toDigits_head hs (cs ++ ds) hds.symm
  exact proper_ofDigits (fun d hd => Sql.digit_toDigits d ((List.rdropWhile_prefix _ _).subset hd))
    hcs hc _

theorem Numeral.Proper.exists_digit (h : n.Proper) :
    ∃ c cs, n.text = c :: cs ∧ digit c = true := by
  rcases h.head with hzero | ⟨c, cs, hcs, -⟩
  · exact ⟨'0', _, by rw [Numeral.text, hzero]; rfl, rfl⟩
  · exact ⟨c, _, by rw [Numeral.text, hcs]; rfl, h.whole c (by simp [hcs])⟩

theorem Double.exists_text (x : Double) :
    ∃ c cs, x.text = c :: cs ∧ (digit c = true ∨ c = '-') := by
  unfold Double.text
  split_ifs with hzero hneg
  · exact ⟨'0', [], rfl, .inl rfl⟩
  · exact ⟨'-', _, rfl, .inr rfl⟩
  · obtain ⟨c, cs, hcs, hc⟩ :=
      (proper_ofRat (representable_abs x.representable) (abs_pos.mpr hzero)).exists_digit
    exact ⟨c, cs, hcs, .inl hc⟩

/-- A numeral does not begin with a sign. -/
theorem scanNumber_text (h : n.Proper) (hrest : Apart rest) :
    scanNumber (n.text ++ rest) = some (Number.ofRat false n.value, rest) := by
  have hscan := scan_text h hrest
  have hmap : (scanNumeral (n.text ++ rest)).map (fun (n, rest) =>
      (Number.ofRat false n.value, rest)) = some (Number.ofRat false n.value, rest) := by
    rw [hscan]
    rfl
  have hhead : ∀ cs, n.text ++ rest ≠ '-' :: cs := by
    intro cs heq
    obtain ⟨c, ds, hds, hc⟩ := h.exists_digit
    rw [hds, List.cons_append, List.cons.injEq] at heq
    rw [heq.1] at hc
    exact absurd hc (by decide)
  unfold scanNumber
  split
  next cs heq => exact absurd heq (hhead cs)
  next => exact hmap

theorem ofRat_value (h : Representable x) (hpos : 0 < x) (hlt : x < 2 ^ 1024)
    (negative : Bool) : Number.ofRat negative (Numeral.ofRat x h hpos).value =
      .finite (if negative then ⟨-x, h.neg, by rwa [abs_neg, abs_of_pos hpos]⟩
        else ⟨x, h, by rwa [abs_of_pos hpos]⟩) := by
  have hrounded : rounded (Numeral.ofRat x h hpos).value = x := by
    rw [value_ofRat]
    exact (shortest_spec h hpos).2
  have hbounded : |rounded (Numeral.ofRat x h hpos).value| < 2 ^ 1024 := by
    rwa [hrounded, abs_of_pos hpos]
  rw [Number.ofRat, dif_pos hbounded]
  congr 1
  cases negative
  · exact Double.ext hrounded
  · exact Double.ext (congrArg Neg.neg hrounded)

theorem scan_number (x : Double) (hrest : Apart rest) :
    scanNumber (x.text ++ rest) = some (.finite x, rest) := by
  have hbounded := x.bounded
  by_cases hzero : x.value = 0
  · have hproper : (⟨['0'], [], none⟩ : Numeral).Proper := ⟨by decide, .inl rfl, by decide⟩
    have hrounded : rounded (⟨['0'], [], none⟩ : Numeral).value = 0 := by
      have hvalue : (⟨['0'], [], none⟩ : Numeral).value = 0 := by
        rw [Numeral.value, show Nat.ofDigitChars 10 (['0'] ++ []) 0 = 0 from rfl, Nat.cast_zero,
          zero_mul]
      rw [hvalue]
      exact rounded_of_representable ⟨0, 0, by norm_num, by norm_num, by norm_num⟩
    rw [Double.text, dif_pos hzero]
    refine (scanNumber_text hproper hrest).trans ?_
    have hlt : |rounded (⟨['0'], [], none⟩ : Numeral).value| < 2 ^ 1024 := by
      rw [hrounded, abs_zero]
      positivity
    rw [Number.ofRat, dif_pos hlt]
    have hx : x = ⟨_, rounded_representable (⟨['0'], [], none⟩ : Numeral).value, hlt⟩ :=
      Double.ext (hzero.trans hrounded.symm)
    rw [hx]
    rfl
  · have hrepresentable := representable_abs x.representable
    have hpos := abs_pos.mpr hzero
    have hproper := proper_ofRat hrepresentable hpos
    rw [Double.text, dif_neg hzero]
    by_cases hneg : x.value < 0
    · have hx : x = ⟨-|x.value|, hrepresentable.neg, by rwa [abs_neg, abs_abs]⟩ :=
        Double.ext (neg_eq_iff_eq_neg.mpr (abs_of_neg hneg)).symm
      rw [if_pos hneg]
      show (scanNumeral ((Numeral.ofRat |x.value| hrepresentable hpos).text ++ rest)).map _ = _
      rw [scan_text hproper hrest, Option.map_some]
      dsimp only
      rw [ofRat_value hrepresentable hpos hbounded, if_pos rfl, ← hx]
    · have hx : x = ⟨|x.value|, hrepresentable, by rwa [abs_abs]⟩ :=
        Double.ext (abs_of_nonneg (not_lt.mp hneg)).symm
      rw [if_neg hneg, List.nil_append, scanNumber_text hproper hrest,
        ofRat_value hrepresentable hpos hbounded, if_neg (by decide), ← hx]

end Js
