import OpenSphere.Sql.Logic

/-!
# Text, patterns and casts

The text functions, the anchored regular expressions and the casts that stored
functions use.  A pattern is written in continuation style, so matching is
structural in the text and runs in the kernel, over the characters `chars` reads
off.  Only what the anchored
expressions of a schema need is here: literal text, a character class with a
repetition bound, alternatives and an optional part.

The facts about casts that proofs need are that reading back a printed integer or
identifier gives it again (`castInteger_decimal`, `castUuid_text`), and the one about
patterns that a text which matches has only characters of the classes (`Within.full`).
-/

namespace Sql

/-! ## Characters -/

/-- The characters of a text.  Those of an ASCII text are its bytes, which a proof
about a concrete text evaluates much faster than the general decoding. -/
def chars (s : String) : List Char :=
  let bytes := s.toByteArray.data.toList
  if bytes.all fun b => b < 128 then bytes.map fun b => Char.ofNat b.toNat else s.toList

/-- A character whose encoding has only bytes below 128 is its one byte. -/
theorem utf8EncodeChar_ascii {c : Char}
    (h : (String.utf8EncodeChar c).all (fun b => b < 128) = true) :
    (String.utf8EncodeChar c).map (fun b => Char.ofNat b.toNat) = [c] := by
  unfold String.utf8EncodeChar at h ⊢
  have hv : c.val.toNat = c.toNat := rfl
  simp only [hv] at h ⊢
  split
  next hle =>
    have hmod : c.toNat % 256 = c.toNat := by omega
    simp [hmod]
  next hle =>
    -- a longer encoding begins with a byte above
    rw [if_neg hle] at h
    exfalso
    split at h
    · simp [UInt8.lt_iff_toNat_lt] at h
      omega
    · split at h
      · simp [UInt8.lt_iff_toNat_lt] at h
        omega
      · simp [UInt8.lt_iff_toNat_lt] at h
        omega

@[simp] theorem chars_ofList (l : List Char) : chars (String.ofList l) = l := by
  have hbytes : (String.ofList l).toByteArray.data.toList = l.flatMap String.utf8EncodeChar :=
    List.toList_data_toByteArray
  simp only [chars, hbytes, String.toList_ofList]
  split
  next h =>
    clear hbytes
    induction l with
    | nil => rfl
    | cons c l ih =>
        rw [List.flatMap_cons, List.all_append, Bool.and_eq_true] at h
        rw [List.flatMap_cons, List.map_append, utf8EncodeChar_ascii h.1, ih h.2]
        rfl
  next => rfl

theorem chars_eq (s : String) : chars s = s.toList := by
  have hs := chars_ofList s.toList
  rwa [String.ofList_toList] at hs

/-! ## Patterns -/

/-- A pattern consumes a beginning of the text and leaves the rest to a
continuation. -/
abbrev Pattern := (List Char → Bool) → List Char → Bool

/-- The characters of a literal, one after the other. -/
def matchChars : List Char → Pattern
  | [], k, cs => k cs
  | _ :: _, _, [] => false
  | c :: t, k, d :: cs => c == d && matchChars t k cs

/-- Between `lo` and `hi` characters of a class; no `hi` is no bound. -/
def matchClass (p : Char → Bool) (k : List Char → Bool) :
    List Char → (lo : Nat) → (hi : Option Nat) → Bool
  | [], lo, _ => lo == 0 && k []
  | c :: cs, lo, hi =>
      (lo == 0 && k (c :: cs)) ||
        (hi != some 0 && p c && matchClass p k cs (lo - 1) (hi.map (· - 1)))

namespace Pattern

def text (s : String) : Pattern := matchChars (chars s)

/-- `[class]{lo,hi}`. -/
def repeated (p : Char → Bool) (lo : Nat) (hi : Option Nat) : Pattern :=
  fun k cs => matchClass p k cs lo hi

/-- `[class]{n}`. -/
def times (p : Char → Bool) (n : Nat) : Pattern := repeated p n (some n)

/-- `[class]*`. -/
def many (p : Char → Bool) : Pattern := repeated p 0 none

/-- `[class]+`. -/
def many1 (p : Char → Bool) : Pattern := repeated p 1 none

/-- `ab...`. -/
def seq (rs : List Pattern) : Pattern := fun k => rs.foldr (fun r k => r k) k

/-- `(a|b|...)`. -/
def alt (rs : List Pattern) : Pattern := fun k cs => rs.any fun r => r k cs

/-- `(a)?`. -/
def opt (r : Pattern) : Pattern := fun k cs => r k cs || k cs

/-- `^...$` on a text. -/
def full (r : Pattern) (s : String) : Bool := r List.isEmpty (chars s)

end Pattern

/-! ## Character classes -/

/-- What holds of the characters of a list is decided by the list. -/
instance decidableAllChars (p : Char → Prop) [DecidablePred p] (cs : List Char) :
    Decidable (∀ c, c ∈ cs → p c) := List.decidableBAll p cs

/-- `[0-9]`. -/
def digit (c : Char) : Bool := '0' ≤ c && c ≤ '9'

/-- `[a-z]`. -/
def lower (c : Char) : Bool := 'a' ≤ c && c ≤ 'z'

/-- `[A-Z]`. -/
def upper (c : Char) : Bool := 'A' ≤ c && c ≤ 'Z'

/-- `[0-9a-f]`. -/
def hexLower (c : Char) : Bool := digit c || ('a' ≤ c && c ≤ 'f')

/-- A class joined with single characters. -/
def orOneOf (p : Char → Bool) (s : List Char) (c : Char) : Bool := p c || s.contains c

/-! ## What patterns match -/

/-- Literal text is taken off the front. -/
theorem matchChars_append (t : List Char) (k : List Char → Bool) (cs : List Char) :
    matchChars t k (t ++ cs) = k cs := by
  induction t with
  | nil => rfl
  | cons c t ih => simp [matchChars, ih]

/-- A class that has every character of a text takes the whole of it. -/
theorem matchClass_length {p : Char → Bool} {cs : List Char} (h : ∀ c ∈ cs, p c = true) :
    matchClass p List.isEmpty cs cs.length (some cs.length) = true := by
  induction cs with
  | nil => rfl
  | cons c cs ih =>
      have hrest := ih fun d hd => h d (List.mem_cons_of_mem _ hd)
      simp [matchClass, h c (List.mem_cons_self ..), hrest]

namespace Pattern

def Within (p : Char → Bool) (r : Pattern) : Prop :=
  ∀ k cs, r k cs = true → ∃ t rest, cs = t ++ rest ∧ (∀ c ∈ t, p c = true) ∧ k rest = true

variable {p : Char → Bool}

theorem within_text {s : String} (h : ∀ c ∈ chars s, p c = true) : Within p (text s) := by
  intro k cs hk
  rw [text] at hk
  generalize chars s = t at h hk
  induction t generalizing cs with
  | nil => exact ⟨[], cs, rfl, nofun, hk⟩
  | cons c t ih =>
      cases cs with
      | nil => cases hk
      | cons d cs =>
          simp only [matchChars, Bool.and_eq_true, beq_iff_eq] at hk
          obtain ⟨rfl, hk⟩ := hk
          obtain ⟨u, rest, rfl, hu, hrest⟩ := ih cs (fun c hc => h c (List.mem_cons_of_mem _ hc)) hk
          exact ⟨c :: u, rest, rfl, List.forall_mem_cons.mpr ⟨h c (List.mem_cons_self ..), hu⟩, hrest⟩

theorem within_repeated {q : Char → Bool} (h : ∀ c, q c = true → p c = true) (lo : Nat)
    (hi : Option Nat) : Within p (repeated q lo hi) := by
  intro k cs hk
  rw [repeated] at hk
  induction cs generalizing lo hi with
  | nil =>
      simp only [matchClass, Bool.and_eq_true] at hk
      exact ⟨[], [], rfl, nofun, hk.2⟩
  | cons c cs ih =>
      simp only [matchClass, Bool.or_eq_true, Bool.and_eq_true] at hk
      rcases hk with ⟨-, hk⟩ | ⟨⟨-, hc⟩, hk⟩
      · exact ⟨[], c :: cs, rfl, nofun, hk⟩
      · obtain ⟨u, rest, rfl, hu, hrest⟩ := ih _ _ hk
        exact ⟨c :: u, rest, rfl, List.forall_mem_cons.mpr ⟨h c hc, hu⟩, hrest⟩

theorem within_seq {rs : List Pattern} (h : ∀ r ∈ rs, Within p r) : Within p (seq rs) := by
  intro k cs hk
  rw [seq] at hk
  induction rs generalizing cs with
  | nil => exact ⟨[], cs, rfl, nofun, hk⟩
  | cons r rs ih =>
      obtain ⟨t, rest, rfl, ht, hk⟩ := h r (List.mem_cons_self ..) _ _ hk
      obtain ⟨u, rest, rfl, hu, hk⟩ := ih (fun r hr => h r (List.mem_cons_of_mem _ hr)) rest hk
      refine ⟨t ++ u, rest, (List.append_assoc ..).symm, fun c hc => ?_, hk⟩
      exact (List.mem_append.mp hc).elim (ht c) (hu c)

theorem Within.full {r : Pattern} (h : Within p r) {s : String} (hs : r.full s = true) :
    ∀ c ∈ chars s, p c = true := by
  obtain ⟨t, rest, hchars, ht, hrest⟩ := h _ _ hs
  rw [List.isEmpty_iff.mp hrest, List.append_nil] at hchars
  exact hchars ▸ ht

end Pattern

theorem hexLower_digitChar {n : Nat} (h : n < 16) : hexLower (Nat.digitChar n) = true := by
  have hall : ∀ n < 16, hexLower (Nat.digitChar n) = true := by decide
  exact hall n h

/-! ## Text functions -/

/-- `length(s)`, in characters. -/
def textLength (s : String) : Int := (chars s).length

/-- `btrim(s)`: without spaces at either end. -/
def btrim (s : String) : String :=
  String.ofList ((((chars s).dropWhile (· == ' ')).reverse.dropWhile (· == ' ')).reverse)

/-- `split_part(s, sep, n)` for a separator of one character, counting from 1. -/
def splitPart (s : String) (sep : Char) (n : Nat) : String :=
  String.ofList (((chars s).splitOn sep)[n - 1]?.getD [])

/-- `substring(s FROM n)`, counting from 1. -/
def substringFrom (s : String) (n : Nat) : String := String.ofList ((chars s).drop (n - 1))

/-- `s LIKE 'pre%'`. -/
def startsWith (s pre : String) : Bool := matchChars (chars pre) (fun _ => true) (chars s)

/-! ## Integers -/

def decimalChars : Int → List Char
  | .ofNat n => Nat.toDigits 10 n
  | .negSucc n => '-' :: Nat.toDigits 10 (n + 1)

/-- `n::text`. -/
def decimal (n : Int) : String := String.ofList (decimalChars n)

def castDigits (cs : List Char) : Option Nat :=
  if cs ≠ [] ∧ cs.all Char.isDigit then some (Nat.ofDigitChars 10 cs 0) else none

def castSigned : List Char → Option Int
  | '-' :: cs => (castDigits cs).map fun n => -(n : Int)
  | '+' :: cs => (castDigits cs).map fun n => (n : Int)
  | cs => (castDigits cs).map fun n => (n : Int)

/-- White space at either end of a literal is ignored. -/
def trimSpace (cs : List Char) : List Char :=
  ((cs.dropWhile Char.isWhitespace).reverse.dropWhile Char.isWhitespace).reverse

/-- The integer a text denotes, if it is within the type. -/
def castWithin (lo hi : Int) (s : String) : Option Int :=
  (castSigned (trimSpace (chars s))).filter fun n => decide (lo ≤ n ∧ n ≤ hi)

/-- The largest `bigint`, of 64 bits with the sign. -/
def maxBigint : Int := 9223372036854775807

/-- The largest `integer`, of 32 bits with the sign. -/
def maxInteger : Int := 2147483647

/-- `s::bigint`. -/
def castBigint : String → Option Int := castWithin (-maxBigint - 1) maxBigint

/-- `s::integer`. -/
def castInteger : String → Option Int := castWithin (-maxInteger - 1) maxInteger

theorem castDigits_toDigits (n : Nat) : castDigits (Nat.toDigits 10 n) = some n := by
  unfold castDigits
  have hall : (Nat.toDigits 10 n).all Char.isDigit = true := by
    rw [List.all_eq_true]
    intro c hc
    exact Nat.isDigit_of_mem_toDigits (by omega) (by omega) hc
  rw [if_pos ⟨Nat.toDigits_ne_nil, hall⟩, Nat.ofDigitChars_toDigits (by omega) (by omega)]

theorem isDigit_not_sign {c : Char} (h : c.isDigit = true) :
    c ≠ '-' ∧ c ≠ '+' ∧ c.isWhitespace = false := by
  refine ⟨?_, ?_, ?_⟩
  · rintro rfl; exact absurd h (by decide)
  · rintro rfl; exact absurd h (by decide)
  · have hge : 48 ≤ c.toNat := by
      simp only [Char.isDigit, Bool.and_eq_true, decide_eq_true_eq] at h
      exact UInt32.le_iff_toNat_le.mp h.1
    have hne : ∀ d : Char, d.toNat < 48 → c ≠ d := by
      rintro d hd rfl
      omega
    simp [Char.isWhitespace, hne ' ' (by decide), hne '\t' (by decide), hne '\r' (by decide),
      hne '\n' (by decide)]

theorem trimSpace_eq {cs : List Char} (h : ∀ c ∈ cs, c.isWhitespace = false) :
    trimSpace cs = cs := by
  have hdrop : ∀ l : List Char, (∀ c ∈ l, c.isWhitespace = false) →
      l.dropWhile Char.isWhitespace = l := by
    intro l hl
    cases l with
    | nil => rfl
    | cons c l => simp [hl c (List.mem_cons_self ..)]
  unfold trimSpace
  rw [hdrop cs h, hdrop cs.reverse (fun c hc => h c (List.mem_reverse.mp hc)), List.reverse_reverse]

/-- Reading back a printed integer gives the integer. -/
theorem castSigned_decimalChars (n : Int) : castSigned (trimSpace (decimalChars n)) = some n := by
  have hdigits : ∀ m : Nat, ∀ c ∈ Nat.toDigits 10 m, c.isDigit = true := fun m c hc =>
    Nat.isDigit_of_mem_toDigits (by omega) (by omega) hc
  cases n with
  | ofNat m =>
      rw [decimalChars, trimSpace_eq (fun c hc => (isDigit_not_sign (hdigits m c hc)).2.2)]
      cases hd : Nat.toDigits 10 m with
      | nil => exact absurd hd Nat.toDigits_ne_nil
      | cons c cs =>
          have hsign := isDigit_not_sign (hdigits m c (by rw [hd]; exact List.mem_cons_self ..))
          have hplain : castSigned (c :: cs) = (castDigits (c :: cs)).map fun n => (n : Int) := by
            rw [castSigned] <;> simp [hsign.1, hsign.2.1]
          rw [hplain, ← hd, castDigits_toDigits]
          rfl
  | negSucc m =>
      have hspace : ∀ c ∈ decimalChars (.negSucc m), c.isWhitespace = false := by
        intro c hc
        rcases List.mem_cons.mp hc with rfl | hc'
        · decide
        · exact (isDigit_not_sign (hdigits _ c hc')).2.2
      rw [trimSpace_eq hspace, decimalChars, castSigned, castDigits_toDigits]
      rfl

theorem castInteger_decimal {n m : Int} (h : castInteger (decimal n) = some m) : m = n := by
  unfold castInteger castWithin decimal at h
  rw [chars_ofList, castSigned_decimalChars] at h
  have := Option.filter_eq_some_iff.mp h
  exact (Option.some.inj this.1).symm

theorem castBigint_decimal {n : Int} (hlo : -maxBigint - 1 ≤ n) (hhi : n ≤ maxBigint) :
    castBigint (decimal n) = some n := by
  unfold castBigint castWithin decimal
  rw [chars_ofList, castSigned_decimalChars]
  exact Option.filter_eq_some_iff.mpr ⟨rfl, decide_eq_true ⟨hlo, hhi⟩⟩

/-! ## Booleans -/

/-- `s::boolean`: a word or a beginning of one, in any case. -/
def castBoolean (s : String) : Option Bool :=
  let w := (trimSpace (chars s)).map Char.toLower
  let begins (word : String) : Bool := w ≠ [] && w.isPrefixOf (chars word)
  if begins "true" || begins "yes" || w = ['o', 'n'] || w = ['1'] then some true
  else if begins "false" || begins "no" || w = ['o', 'f'] || w = ['o', 'f', 'f'] ||
      w = ['0']
  then some false
  else none

/-! ## Identifiers -/

/-- A `uuid`. -/
structure Uuid where
  /-- Its 128 bits. -/
  bits : BitVec 128
deriving DecidableEq, Repr

/-- The 32 hexadecimal digits, most significant first. -/
def Uuid.hex (u : Uuid) : List Char :=
  (List.range 32).map fun i => Nat.digitChar (u.bits.toNat >>> (4 * (31 - i)) % 16)

/-- `u::text`: groups of 8, 4, 4, 4 and 12 digits. -/
def Uuid.text (u : Uuid) : String :=
  let h := u.hex
  String.ofList (h.take 8 ++ '-' :: (h.drop 8).take 4 ++ '-' :: (h.drop 12).take 4 ++
    '-' :: (h.drop 16).take 4 ++ '-' :: h.drop 20)

theorem digitChar_injective {m n : Nat} (hm : m < 16) (hn : n < 16)
    (h : Nat.digitChar m = Nat.digitChar n) : m = n := by
  have hall : ∀ m < 16, ∀ n < 16, Nat.digitChar m = Nat.digitChar n → m = n := by decide
  exact hall m hm n hn h

theorem Uuid.length_hex (u : Uuid) : u.hex.length = 32 := by simp [Uuid.hex]

/-- The digits determine the identifier: bit `j` is a bit of the digit of weight `j / 4`. -/
theorem Uuid.hex_injective {u v : Uuid} (h : u.hex = v.hex) : u = v := by
  obtain ⟨x⟩ := u
  obtain ⟨y⟩ := v
  have hdigit : ∀ k < 32, x.toNat >>> (4 * k) % 16 = y.toNat >>> (4 * k) % 16 := by
    intro k hk
    have hget := congrArg (fun l => l[31 - k]?) h
    simp only [Uuid.hex, List.getElem?_map, List.getElem?_range (show 31 - k < 32 by omega),
      Option.map_some, Option.some.injEq, show 31 - (31 - k) = k by omega] at hget
    exact digitChar_injective (Nat.mod_lt _ (by decide)) (Nat.mod_lt _ (by decide)) hget
  congr 1
  refine BitVec.eq_of_toNat_eq (Nat.eq_of_testBit_eq fun j => ?_)
  by_cases hj : j < 128
  · have hbit : ∀ n : Nat, n.testBit j = (n >>> (4 * (j / 4)) % 16).testBit (j % 4) := by
      intro n
      rw [show 16 = 2 ^ 4 from rfl, Nat.testBit_mod_two_pow, Nat.testBit_shiftRight,
        Nat.div_add_mod]
      simp [Nat.mod_lt]
    rw [hbit, hbit y.toNat, hdigit (j / 4) (by omega)]
  · rw [Nat.testBit_lt_two_pow, Nat.testBit_lt_two_pow] <;>
      exact Nat.lt_of_lt_of_le (BitVec.isLt _) (Nat.pow_le_pow_right (by decide) (by omega))

theorem Uuid.hex_ne_hyphen {u : Uuid} {c : Char} (hc : c ∈ u.hex) : c ≠ '-' := by
  obtain ⟨i, -, rfl⟩ := List.mem_map.mp hc
  have hall : ∀ n < 16, Nat.digitChar n ≠ '-' := by decide
  exact hall _ (Nat.mod_lt _ (by decide))

/-- The text without its hyphens is the digits. -/
theorem Uuid.filter_text (u : Uuid) : (chars u.text).filter (· ≠ '-') = u.hex := by
  have hkeep : ∀ l : List Char, (∀ c ∈ l, c ∈ u.hex) → l.filter (· ≠ '-') = l := by
    intro l hl
    exact List.filter_eq_self.mpr fun c hc => decide_eq_true (hex_ne_hyphen (hl c hc))
  have hdrop : ∀ n, ∀ c ∈ u.hex.drop n, c ∈ u.hex := fun n c hc => List.mem_of_mem_drop hc
  have htake : ∀ m n, ∀ c ∈ (u.hex.drop n).take m, c ∈ u.hex := fun m n c hc =>
    hdrop n c (List.mem_of_mem_take hc)
  have hjoin : ∀ m n, (u.hex.drop n).take m ++ u.hex.drop (n + m) = u.hex.drop n := by
    intro m n
    rw [← List.drop_drop, List.take_append_drop]
  have hhead : ∀ c ∈ u.hex.take 8, c ∈ u.hex := fun c hc => List.mem_of_mem_take hc
  simp only [Uuid.text, chars_ofList, List.filter_append, List.filter_cons, List.append_assoc,
    hkeep _ hhead, hkeep _ (htake 4 _), hkeep _ (hdrop 20)]
  simp [hjoin 4 8, hjoin 4 12, hjoin 4 16]

theorem Uuid.text_injective {u v : Uuid} (h : u.text = v.text) : u = v := by
  apply Uuid.hex_injective
  rw [← u.filter_text, ← v.filter_text, h]

/-- The value of a hexadecimal digit of either case. -/
def hexValue (c : Char) : Option Nat :=
  if digit c then some (c.toNat - '0'.toNat)
  else if 'a' ≤ c ∧ c ≤ 'f' then some (c.toNat - 'a'.toNat + 10)
  else if 'A' ≤ c ∧ c ≤ 'F' then some (c.toNat - 'A'.toNat + 10)
  else none

/-- Hexadecimal digits, a hyphen allowed after every group of four.  `n` counts
the digits read and `acc` is their value. -/
def castHexGroups : List Char → (n acc : Nat) → Option Nat
  | [], n, acc => if n = 32 then some acc else none
  | '-' :: cs, n, acc => if 0 < n ∧ n < 32 ∧ n % 4 = 0 then castHexGroups cs n acc else none
  | c :: cs, n, acc =>
      match hexValue c with
      | some v => castHexGroups cs (n + 1) (acc * 16 + v)
      | none => none

/-- `s::uuid`. -/
def castUuid (s : String) : Option Uuid :=
  (castHexGroups (chars s) 0 0).map fun v => ⟨BitVec.ofNat 128 v⟩

/-- Hexadecimal digits are read one after the other. -/
theorem castHexGroups_append {ds : List Nat} (hds : ∀ d ∈ ds, d < 16) (rest : List Char)
    (n acc : Nat) :
    castHexGroups (ds.map Nat.digitChar ++ rest) n acc =
      castHexGroups rest (n + ds.length) (ds.foldl (fun v d => v * 16 + d) acc) := by
  induction ds generalizing n acc with
  | nil => rfl
  | cons d ds ih =>
      have hd := hds d (List.mem_cons_self ..)
      have hvalue : ∀ d < 16, hexValue (Nat.digitChar d) = some d := by decide
      have hhyphen : ∀ d < 16, Nat.digitChar d ≠ '-' := by decide
      rw [List.map_cons, List.cons_append, castHexGroups.eq_3 _ _ _ _ (hhyphen d hd), hvalue d hd]
      simp only
      rw [ih (fun d' hd' => hds d' (List.mem_cons_of_mem _ hd')), List.length_cons,
        List.foldl_cons, Nat.add_assoc, Nat.add_comm 1]

theorem castHexGroups_hyphen {n : Nat} (h : 0 < n ∧ n < 32 ∧ n % 4 = 0) (rest : List Char)
    (acc : Nat) : castHexGroups ('-' :: rest) n acc = castHexGroups rest n acc := by
  rw [castHexGroups, if_pos h]

/-- The last digits of a number in base sixteen, the most significant one first. -/
def nibbles (v n : Nat) : List Nat := (List.range n).map fun i => v >>> (4 * (n - 1 - i)) % 16

theorem nibbles_succ (v n : Nat) : nibbles v (n + 1) = nibbles (v >>> 4) n ++ [v % 16] := by
  simp only [nibbles, List.range_succ, List.map_append, List.map_singleton]
  congr 1
  · refine List.map_congr_left fun i hi => ?_
    have hi := List.mem_range.mp hi
    rw [← Nat.shiftRight_add]
    congr 2
    omega
  · simp

theorem foldl_nibbles (v n acc : Nat) :
    (nibbles v n).foldl (fun v d => v * 16 + d) acc = acc * 16 ^ n + v % 16 ^ n := by
  induction n generalizing v with
  | zero => simp [nibbles, Nat.mod_one]
  | succ n ih =>
      have hmod : v % (16 ^ n * 16) = (v / 16 % 16 ^ n) * 16 + v % 16 := by
        rw [Nat.mul_comm (16 ^ n) 16, Nat.mod_mul, Nat.mul_comm 16, Nat.add_comm]
      have hshift : v >>> 4 = v / 16 := Nat.shiftRight_eq_div_pow v 4
      rw [nibbles_succ, List.foldl_append, ih, hshift, Nat.pow_succ, hmod]
      simp only [List.foldl_cons, List.foldl_nil, Nat.add_mul, Nat.mul_assoc, Nat.add_assoc]

theorem castUuid_text (u : Uuid) : castUuid u.text = some u := by
  have hhex : u.hex = (nibbles u.bits.toNat 32).map Nat.digitChar := by simp [Uuid.hex, nibbles]
  have hlt : ∀ d ∈ nibbles u.bits.toNat 32, d < 16 := by
    intro d hd
    obtain ⟨i, -, rfl⟩ := List.mem_map.mp hd
    exact Nat.mod_lt _ (by decide)
  have hlength : (nibbles u.bits.toNat 32).length = 32 := by simp [nibbles]
  have hvalue : (nibbles u.bits.toNat 32).foldl (fun v d => v * 16 + d) 0 = u.bits.toNat := by
    rw [foldl_nibbles, Nat.zero_mul, Nat.zero_add]
    exact Nat.mod_eq_of_lt u.bits.isLt
  generalize nibbles u.bits.toNat 32 = l at hhex hlt hlength hvalue
  have htake : ∀ n m, ∀ d ∈ (l.drop n).take m, d < 16 :=
    fun n m d hd => hlt d (List.mem_of_mem_drop (List.mem_of_mem_take hd))
  have hchars : chars u.text = (l.take 8).map Nat.digitChar ++ '-' ::
      (((l.drop 8).take 4).map Nat.digitChar ++ '-' :: (((l.drop 12).take 4).map Nat.digitChar ++
      '-' :: (((l.drop 16).take 4).map Nat.digitChar ++ '-' ::
        ((l.drop 20).map Nat.digitChar ++ [])))) := by
    rw [Uuid.text, chars_eq, String.toList_ofList, hhex]
    simp only [← List.map_take, ← List.map_drop, List.append_assoc, List.cons_append,
      List.append_nil]
  have hparts : l = l.take 8 ++ ((l.drop 8).take 4 ++ ((l.drop 12).take 4 ++
      ((l.drop 16).take 4 ++ l.drop 20))) := by
    have hstep : ∀ n, (l.drop n).take 4 ++ l.drop (n + 4) = l.drop n := by
      intro n
      rw [← List.drop_drop, List.take_append_drop]
    rw [hstep 16, hstep 12, hstep 8, List.take_append_drop]
  rw [hparts] at hvalue
  simp only [List.foldl_append] at hvalue
  rw [castUuid, hchars, castHexGroups_append (fun d hd => hlt d (List.mem_of_mem_take hd)),
     castHexGroups_hyphen (by simp [hlength]),
    castHexGroups_append (htake 8 4), castHexGroups_hyphen (by simp [hlength]),
    castHexGroups_append (htake 12 4), castHexGroups_hyphen (by simp [hlength]),
    castHexGroups_append (htake 16 4), castHexGroups_hyphen (by simp [hlength]),
    castHexGroups_append (fun d hd => hlt d (List.mem_of_mem_drop hd)), hvalue]
  have hlen : 0 + (l.take 8).length + ((l.drop 8).take 4).length + ((l.drop 12).take 4).length +
      ((l.drop 16).take 4).length + (l.drop 20).length = 32 := by simp [hlength]
  rw [hlen]
  simp [castHexGroups]

/-! ## Instants -/

/-- A `timestamptz`: microseconds since 1970-01-01T00:00:00Z. -/
abbrev Timestamp := Int

/-- `make_interval(secs => n)`. -/
def seconds (n : Int) : Int := n * 1000000

/-- A number in exactly `width` digits. -/
def padded (width : Nat) (n : Nat) : List Char :=
  let d := Nat.toDigits 10 n
  List.replicate (width - d.length) '0' ++ d

/-- Year, month and day of a day number, by the proleptic Gregorian calendar. -/
def civilDate (day : Int) : Int × Nat × Nat :=
  let z := day + 719468
  let era := z / 146097
  let doe := (z % 146097).toNat
  let yoe := (doe - doe / 1460 + doe / 36524 - doe / 146096) / 365
  let doy := doe - (365 * yoe + yoe / 4 - yoe / 100)
  let mp := (5 * doy + 2) / 153
  let month := if mp < 10 then mp + 3 else mp - 9
  (era * 400 + yoe + (if month ≤ 2 then 1 else 0), month, doy - (153 * mp + 2) / 5 + 1)

/-- The ISO text of an instant, in a session whose time zone is UTC. -/
def Timestamp.text (t : Timestamp) : String :=
  let (y, m, d) := civilDate (t / 86400000000)
  let us := (t % 86400000000).toNat
  let s := us / 1000000
  let frac := us % 1000000
  String.ofList (padded 4 y.toNat ++ '-' :: padded 2 m ++ '-' :: padded 2 d ++
    'T' :: padded 2 (s / 3600) ++ ':' :: padded 2 (s / 60 % 60) ++ ':' :: padded 2 (s % 60) ++
    (if frac = 0 then [] else
      '.' :: ((padded 6 frac).reverse.dropWhile (· == '0')).reverse) ++ chars "+00:00")

end Sql
