import Mathlib.Data.List.DropRight
import OpenSphere.Sql.Text

/-!
# Values and text of JavaScript

A value as a JSON request carries it, the text `String` makes of it, and the text
functions that count and trim.  JavaScript counts UTF-16 units where SQL counts
characters, and its `trim` drops every white space where `btrim` drops blanks.

`btrim_trim` and `textLength_le_length` compare the two.  A text of the basic plane
has one unit for each character, so there the two lengths agree
(`length_eq_textLength`).
-/

open Sql

namespace Js

/-! ## Values -/

mutual

inductive Value where
  | undefined
  | null
  | boolean (b : Bool)
  /-- A number, by the text `String` gives it. -/
  | number (text : String)
  | string (s : String)
  | array (xs : Values)
  | object (ms : Members)

inductive Values where
  | nil
  | cons (x : Value) (xs : Values)

/-- The own properties of an object, in the order of `Object.keys`. -/
inductive Members where
  | nil
  | cons (k : String) (x : Value) (ms : Members)

end

/-- `Object.keys(x)`. -/
def Members.keys : Members → List String
  | .nil => []
  | .cons k _ ms => k :: ms.keys

def Members.get (name : String) : Members → Value
  | .nil => .undefined
  | .cons k x ms => if k = name then x else ms.get name

/-- `x.name` for a name that no object inherits. -/
def Value.get (x : Value) (name : String) : Value :=
  match x with
  | .object ms => ms.get name
  | _ => .undefined

/-- `x == null`. -/
def Value.nullish : Value → Bool
  | .undefined => true
  | .null => true
  | _ => false

mutual

/-- `String(x)`.  An object with a `toString` of its own, which no JSON makes
callable, has no text. -/
def Value.toText : Value → Option String
  | .undefined => some "undefined"
  | .null => some "null"
  | .boolean true => some "true"
  | .boolean false => some "false"
  | .number t => some t
  | .string s => some s
  | .array xs => xs.join
  | .object ms => if "toString" ∈ ms.keys then none else some "[object Object]"

/-- `xs.join(',')`, where an element that is null has no text. -/
def Values.join : Values → Option String
  | .nil => some ""
  | .cons x .nil => if x.nullish then some "" else x.toText
  | .cons x xs => do
      let t ← if x.nullish then some "" else x.toText
      let u ← xs.join
      return t ++ "," ++ u

end

/-- `x ?? ''`. -/
def Value.orEmpty (x : Value) : Value := if x.nullish then .string "" else x

/-- `Number.MAX_SAFE_INTEGER`. -/
def maxSafeInteger : Int := 9007199254740991

/-! ## Text -/

/-- The UTF-16 units of a text.  A character outside the basic plane stands twice,
once for each half of its pair. -/
def units (t : String) : List Char :=
  (chars t).flatMap fun c => if c.toNat < 0x10000 then [c] else [c, c]

def length (t : String) : Nat := (units t).length

/-- `r.test(t)` for a pattern `^...$` without flags. -/
def test (r : Pattern) (t : String) : Bool := r List.isEmpty (units t)

/-- White space and line terminators. -/
def whitespace (c : Char) : Bool :=
  decide (0x09 ≤ c.toNat ∧ c.toNat ≤ 0x0D) || decide (0x2000 ≤ c.toNat ∧ c.toNat ≤ 0x200A) ||
    [0x20, 0xA0, 0x1680, 0x2028, 0x2029, 0x202F, 0x205F, 0x3000, 0xFEFF].contains c.toNat

/-- A list without what satisfies `p` at either end. -/
def strip {α : Type} (p : α → Bool) (l : List α) : List α := (l.dropWhile p).rdropWhile p

def trim (t : String) : String := String.ofList (strip whitespace (chars t))

/-- No character of the text needs a pair of units. -/
def Basic (t : String) : Prop := ∀ c ∈ chars t, c.toNat < 0x10000

/-! ## Comparison with SQL -/

/-- Stripping less after stripping more changes nothing. -/
theorem strip_strip {α : Type} {p q : α → Bool} (h : ∀ c, q c = true → p c = true) (l : List α) :
    strip q (strip p l) = strip p l := by
  have hfirst : (strip p l).dropWhile q = strip p l := by
    rw [List.dropWhile_eq_self_iff]
    intro hl hq
    -- the first element is the one the left strip stopped at
    have hpre : strip p l <+: l.dropWhile p := List.rdropWhile_prefix p _
    have hpos : 0 < (l.dropWhile p).length := Nat.lt_of_lt_of_le hl hpre.length_le
    refine List.dropWhile_get_zero_not p l hpos ?_
    show p (l.dropWhile p)[0] = true
    rw [← hpre.getElem hl]
    exact h _ hq
  have hlast : (strip p l).rdropWhile q = strip p l := by
    rw [List.rdropWhile_eq_self_iff]
    intro hl hq
    exact List.rdropWhile_last_not p (l.dropWhile p) hl (h _ hq)
  show ((strip p l).dropWhile q).rdropWhile q = strip p l
  rw [hfirst, hlast]

theorem trim_trim (t : String) : trim (trim t) = trim t := by
  unfold trim
  rw [chars_ofList, strip_strip fun _ h => h]

/-- A text without white space is trimmed. -/
theorem trim_eq_self {t : String} (h : ∀ c ∈ chars t, whitespace c = false) : trim t = t := by
  have hfirst : (chars t).dropWhile whitespace = chars t := by
    rw [List.dropWhile_eq_self_iff]
    intro hl hspace
    exact absurd (h _ (List.getElem_mem hl)) (by simp [hspace])
  have hlast : (chars t).rdropWhile whitespace = chars t := by
    rw [List.rdropWhile_eq_self_iff]
    intro hl hspace
    exact absurd (h _ (List.getLast_mem hl)) (by simp [hspace])
  rw [trim, strip, hfirst, hlast, chars_eq, String.ofList_toList]

/-- Letters, digits and the signs between the parts of a name are no white space. -/
theorem not_whitespace_of_name {c : Char}
    (h : orOneOf (fun c => lower c || digit c) ['.', '_', '-'] c = true) : whitespace c = false := by
  -- the class lies between the hyphen and `z`
  have hrange : '-'.toNat ≤ c.toNat ∧ c.toNat ≤ 'z'.toNat := by
    simp only [orOneOf, lower, digit, Bool.or_eq_true, Bool.and_eq_true, decide_eq_true_eq,
      List.contains_eq_mem, List.mem_cons, List.not_mem_nil, or_false] at h
    rcases h with (⟨hlo, hhi⟩ | ⟨hlo, hhi⟩) | rfl | rfl | rfl
    · exact ⟨Nat.le_trans (by decide) hlo, hhi⟩
    · exact ⟨Nat.le_trans (by decide) hlo, Nat.le_trans hhi (by decide)⟩
    all_goals decide
  have hlo : 45 ≤ c.toNat := hrange.1
  have hhi : c.toNat ≤ 122 := hrange.2
  simp only [whitespace, Bool.or_eq_false_iff, decide_eq_false_iff_not, List.contains_eq_mem,
    List.mem_cons, List.not_mem_nil, or_false]
  omega

/-- An identifier has no white space. -/
theorem trim_uuid (u : Uuid) : trim u.text = u.text := by
  have hdigit : ∀ c ∈ u.hex, whitespace c = false := by
    intro c hc
    obtain ⟨i, -, rfl⟩ := List.mem_map.mp hc
    have hall : ∀ n < 16, whitespace (Nat.digitChar n) = false := by decide
    exact hall _ (Nat.mod_lt _ (by decide))
  refine trim_eq_self fun c hc => ?_
  by_cases hhyphen : c = '-'
  · rw [hhyphen]
    decide
  · apply hdigit
    rw [← u.filter_text, List.mem_filter]
    exact ⟨hc, decide_eq_true hhyphen⟩

theorem btrim_trim (t : String) : btrim (trim t) = trim t := by
  have hblank : ∀ c : Char, (c == ' ') = true → whitespace c = true := by
    intro c hc
    rw [beq_iff_eq.mp hc]
    decide
  have hstrip := strip_strip hblank (chars t)
  show String.ofList (strip (· == ' ') (chars (String.ofList (strip whitespace (chars t))))) = _
  rw [chars_ofList, hstrip]
  rfl

theorem btrim_btrim (t : String) : btrim (btrim t) = btrim t := by
  have hstrip := strip_strip (fun _ h => h) (l := chars t) (q := fun c => c == ' ')
  show String.ofList (strip (· == ' ') (chars (String.ofList (strip (· == ' ') (chars t))))) = _
  rw [chars_ofList, hstrip]
  rfl

theorem textLength_le_length (t : String) : textLength t ≤ length t := by
  have hunits : ∀ l : List Char,
      l.length ≤ (l.flatMap fun c => if c.toNat < 0x10000 then [c] else [c, c]).length := by
    intro l
    induction l with
    | nil => exact Nat.le_refl _
    | cons c l ih =>
        rw [List.flatMap_cons, List.length_append, List.length_cons]
        have hone : 1 ≤ (if c.toNat < 0x10000 then [c] else [c, c]).length := by
          split <;> simp
        omega
  exact Int.ofNat_le.mpr (hunits (chars t))

theorem units_eq_chars {t : String} (ht : Basic t) : units t = chars t := by
  unfold units
  rw [List.flatMap_congr (g := fun c => [c]) (fun c hc => if_pos (ht c hc))]
  simp

/-- A text of the basic plane is as long for JavaScript as for SQL. -/
theorem length_eq_textLength {t : String} (ht : Basic t) : (length t : Int) = textLength t := by
  unfold length textLength
  rw [units_eq_chars ht]

theorem mem_units {t : String} {c : Char} (h : c ∈ chars t) : c ∈ units t := by
  refine List.mem_flatMap.mpr ⟨c, h, ?_⟩
  split
  · exact List.mem_singleton_self c
  · exact List.mem_cons_self

theorem test_within {p : Char → Bool} {r : Pattern} (hr : r.Within p) {t : String}
    (h : test r t = true) : ∀ c ∈ chars t, p c = true := by
  obtain ⟨u, rest, hunits, hu, hrest⟩ := hr _ _ h
  rw [List.isEmpty_iff.mp hrest, List.append_nil] at hunits
  exact fun c hc => hu c (hunits ▸ mem_units hc)

/-- A pattern matches a text of the basic plane in JavaScript exactly when it does in SQL. -/
theorem test_eq_full {t : String} (ht : Basic t) (r : Pattern) : test r t = r.full t := by
  rw [test, units_eq_chars ht, Pattern.full]

theorem length_pos_iff {t : String} : 0 < length t ↔ 0 < textLength t := by
  unfold length units textLength
  cases chars t with
  | nil => simp
  | cons c l =>
      have hone : 0 < (if c.toNat < 0x10000 then [c] else [c, c]).length := by
        split <;> simp
      rw [List.flatMap_cons, List.length_append, List.length_cons]
      omega

end Js
