import Mathlib.Data.List.DropRight

/-!
# Base64

Three octets are four sextets, and two or one octets at the end are three or two
sextets.  `sextets` and `octets` go to and fro, and a sextet is a character of the
standard alphabet.

There are three writers and readers.  `encodeRaw` writes no padding, `encode` pads
to full groups, and the two differ in what a reader of the end strips.  `decodeRaw`
reads what `encodeRaw` writes and refuses everything else up to line breaks, and
`decode` reads whatever it can.
-/

namespace Codec.Base64

def sextets : List UInt8 → List Nat
  | [] => []
  | [a] => [a.toNat / 4, a.toNat % 4 * 16]
  | [a, b] => [a.toNat / 4, a.toNat % 4 * 16 + b.toNat / 16, b.toNat % 16 * 4]
  | a :: b :: c :: rest =>
      a.toNat / 4 :: (a.toNat % 4 * 16 + b.toNat / 16) :: (b.toNat % 16 * 4 + c.toNat / 64) ::
        c.toNat % 64 :: sextets rest

/-- The octets of some sextets.  Bits that do not fill an octet are dropped. -/
def octets : List Nat → List UInt8
  | x :: y :: z :: w :: rest =>
      UInt8.ofNat (x * 4 + y / 16) :: UInt8.ofNat (y % 16 * 16 + z / 4) ::
        UInt8.ofNat (z % 4 * 64 + w) :: octets rest
  | [x, y, z] => [UInt8.ofNat (x * 4 + y / 16), UInt8.ofNat (y % 16 * 16 + z / 4)]
  | [x, y] => [UInt8.ofNat (x * 4 + y / 16)]
  | _ => []

def letter (n : Nat) : Char :=
  if n < 26 then Char.ofNat ('A'.toNat + n)
  else if n < 52 then Char.ofNat ('a'.toNat + (n - 26))
  else if n < 62 then Char.ofNat ('0'.toNat + (n - 52))
  else if n = 62 then '+'
  else '/'

/-- The sextet of a character of the standard alphabet. -/
def value (c : Char) : Option Nat :=
  if 'A' ≤ c ∧ c ≤ 'Z' then some (c.toNat - 'A'.toNat)
  else if 'a' ≤ c ∧ c ≤ 'z' then some (c.toNat - 'a'.toNat + 26)
  else if '0' ≤ c ∧ c ≤ '9' then some (c.toNat - '0'.toNat + 52)
  else if c = '+' then some 62
  else if c = '/' then some 63
  else none

def encodeRaw (bs : List UInt8) : List Char := (sextets bs).map letter

def encode (bs : List UInt8) : List Char :=
  encodeRaw bs ++ List.replicate ((3 - bs.length % 3) % 3) '='

/-- `text.replace(/=+$/, '')`. -/
def stripPadding (cs : List Char) : List Char := cs.rdropWhile (· == '=')

/-- The reader of the encoding without padding.  Line breaks are skipped, every other
character that is not of the alphabet and a single last one are refused. -/
def decodeRaw (cs : List Char) : Option (List UInt8) :=
  match (cs.filter fun c => c != '\r' && c != '\n').mapM value with
  | some xs => if xs.length % 4 = 1 then none else some (octets xs)
  | none => none

/-- The reader that skips what it does not know.  It also reads the alphabet for URLs. -/
def decode (cs : List Char) : List UInt8 :=
  octets (cs.filterMap fun c => if c = '-' then some 62 else if c = '_' then some 63 else value c)

/-! ## Octets come back -/

theorem length_sextets (bs : List UInt8) : (sextets bs).length = (4 * bs.length + 2) / 3 := by
  induction bs using sextets.induct with
  | case1 => rfl
  | case2 a => simp [sextets]
  | case3 a b => simp [sextets]
  | case4 a b c rest ih =>
      simp only [sextets, List.length_cons, ih]
      omega

theorem sextets_lt (bs : List UInt8) : ∀ x ∈ sextets bs, x < 64 := by
  induction bs using sextets.induct with
  | case1 => simp [sextets]
  | case2 a =>
      have ha := a.toNat_lt
      simp only [sextets, List.mem_cons, List.not_mem_nil, or_false]
      rintro x (rfl | rfl) <;> omega
  | case3 a b =>
      have ha := a.toNat_lt
      have hb := b.toNat_lt
      simp only [sextets, List.mem_cons, List.not_mem_nil, or_false]
      rintro x (rfl | rfl | rfl) <;> omega
  | case4 a b c rest ih =>
      have ha := a.toNat_lt
      have hb := b.toNat_lt
      have hc := c.toNat_lt
      simp only [sextets, List.mem_cons]
      rintro x (rfl | rfl | rfl | rfl | hx)
      · omega
      · omega
      · omega
      · omega
      · exact ih x hx

theorem octets_sextets (bs : List UInt8) : octets (sextets bs) = bs := by
  have hback : ∀ (a : UInt8) n, n = a.toNat → UInt8.ofNat n = a := fun a n hn => by
    rw [hn, UInt8.ofNat_toNat]
  induction bs using sextets.induct with
  | case1 => rfl
  | case2 a =>
      have ha := a.toNat_lt
      rw [sextets, octets, hback a _ (by omega)]
  | case3 a b =>
      have ha := a.toNat_lt
      have hb := b.toNat_lt
      rw [sextets, octets, hback a _ (by omega), hback b _ (by omega)]
  | case4 a b c rest ih =>
      have ha := a.toNat_lt
      have hb := b.toNat_lt
      have hc := c.toNat_lt
      rw [sextets, octets, hback a _ (by omega), hback b _ (by omega), hback c _ (by omega), ih]

theorem sextets_length (bs : List UInt8) : (sextets bs).length % 4 ≠ 1 := by
  induction bs using sextets.induct with
  | case1 => simp [sextets]
  | case2 => simp [sextets]
  | case3 => simp [sextets]
  | case4 a b c rest ih =>
      simp only [sextets, List.length_cons]
      omega

theorem value_letter {n : Nat} (h : n < 64) : value (letter n) = some n := by
  have hall : ∀ n < 64, value (letter n) = some n := by decide
  exact hall n h

theorem letter_ne {n : Nat} (h : n < 64) :
    letter n ≠ '=' ∧ letter n ≠ '\r' ∧ letter n ≠ '\n' ∧ letter n ≠ '-' ∧ letter n ≠ '_' := by
  have hall : ∀ n < 64, letter n ≠ '=' ∧ letter n ≠ '\r' ∧ letter n ≠ '\n' ∧ letter n ≠ '-' ∧
    letter n ≠ '_' := by decide
  exact hall n h

theorem mem_encodeRaw {bs : List UInt8} {c : Char} (h : c ∈ encodeRaw bs) :
    ∃ n < 64, letter n = c := by
  obtain ⟨n, hn, rfl⟩ := List.mem_map.mp h
  exact ⟨n, sextets_lt bs n hn, rfl⟩

/-- The alphabet has no padding, so stripping what `encode` pads leaves `encodeRaw`. -/
theorem stripPadding_encode (bs : List UInt8) : stripPadding (encode bs) = encodeRaw bs := by
  have hpad : ∀ k, stripPadding (encodeRaw bs ++ List.replicate k '=') = encodeRaw bs := by
    intro k
    induction k with
    | zero =>
        rw [List.replicate_zero, List.append_nil, stripPadding, List.rdropWhile_eq_self_iff]
        intro hne hlast
        obtain ⟨n, hn, hletter⟩ := mem_encodeRaw (List.getLast_mem hne)
        exact (letter_ne hn).1 (hletter.trans (beq_iff_eq.mp hlast))
    | succ k ih =>
        rw [List.replicate_succ', ← List.append_assoc, stripPadding,
          List.rdropWhile_concat_pos _ _ _ (by simp)]
        exact ih
  exact hpad _

theorem mapM_value (xs : List Nat) (h : ∀ x ∈ xs, x < 64) :
    (xs.map letter).mapM value = some xs := by
  induction xs with
  | nil => rfl
  | cons x xs ih =>
      rw [List.map_cons, List.mapM_cons, value_letter (h x (List.mem_cons_self ..)),
        ih fun y hy => h y (List.mem_cons_of_mem _ hy)]
      rfl

theorem decodeRaw_encodeRaw (bs : List UInt8) : decodeRaw (encodeRaw bs) = some bs := by
  have hkept : (encodeRaw bs).filter (fun c => c != '\r' && c != '\n') = encodeRaw bs := by
    refine List.filter_eq_self.mpr fun c hc => ?_
    obtain ⟨n, hn, rfl⟩ := mem_encodeRaw hc
    obtain ⟨-, hcr, hlf, -⟩ := letter_ne hn
    simp [hcr, hlf]
  rw [decodeRaw, hkept, encodeRaw, mapM_value _ (sextets_lt bs)]
  dsimp only
  rw [if_neg (sextets_length bs), octets_sextets]

theorem decode_encodeRaw (bs : List UInt8) : decode (encodeRaw bs) = bs := by
  have hread : ∀ xs : List Nat, (∀ x ∈ xs, x < 64) → (xs.map letter).filterMap
      (fun c => if c = '-' then some 62 else if c = '_' then some 63 else value c) = xs := by
    intro xs h
    induction xs with
    | nil => rfl
    | cons x xs ih =>
        have hx := h x (List.mem_cons_self ..)
        obtain ⟨-, -, -, hminus, hunder⟩ := letter_ne hx
        rw [List.map_cons, List.filterMap_cons, if_neg hminus, if_neg hunder, value_letter hx,
          ih fun y hy => h y (List.mem_cons_of_mem _ hy)]
  rw [decode, encodeRaw, hread _ (sextets_lt bs), octets_sextets]

end Codec.Base64
