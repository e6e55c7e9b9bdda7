import OpenSphere.Codec.Base64
import OpenSphere.Codec.Utf8
import OpenSphere.Js.Text

/-!
# Messages

What `JSON.parse` makes of a message from somebody else.  A text may hold halves of
surrogate pairs, so it is a list of points and not of characters, and an integer is
rounded to the nearest double.

A function that checks a message reads some members of it.  Whether a member is an
array or an object matters to it, what is in that does not.
-/

open Sql

namespace Js

/-- An element of a text: a character, or half of a surrogate pair that stands alone. -/
inductive Point where
  | char (c : Char)
  | lone (unit : UInt16)
deriving DecidableEq

/-- A text without halves of pairs. -/
def points (t : String) : List Point := (chars t).map .char

/-- `Buffer.from(t)`.  A half of a pair becomes the replacement character. -/
def utf8 (t : List Point) : List UInt8 :=
  t.flatMap fun
    | .char c => String.utf8EncodeChar c
    | .lone _ => String.utf8EncodeChar Codec.Utf8.replacement

/-- `buffer.toString('utf8')`. -/
def fromUtf8 (bs : List UInt8) : List Point := (Codec.Utf8.decode bs).map .char

/-- `Buffer.from(t, 'base64')`. -/
def fromBase64 (t : List Point) : List UInt8 :=
  Codec.Base64.decode (t.filterMap fun
    | .char c => some c
    | .lone _ => none)

def pointsLength (t : List Point) : Nat :=
  (t.map fun
    | .char c => if c.toNat < 0x10000 then 1 else 2
    | .lone _ => 1).sum

/-- The double nearest to an integer, and of two that are equally near the even one. -/
def double (n : Int) : Int :=
  let unit := 2 ^ (n.natAbs.log2 - 52)
  let q := n.natAbs / unit
  let r := n.natAbs % unit
  n.sign * ((if 2 * r < unit ∨ 2 * r = unit ∧ q % 2 = 0 then q else q + 1) * unit : Nat)

inductive Datum where
  | undefined
  | null
  | boolean (b : Bool)
  /-- A number, with its value where that is an integer. -/
  | number (n : Option Int)
  | string (t : List Point)
  | array
  | object
deriving DecidableEq

/-- `Number.isInteger(x)`, with the value. -/
def Datum.integer : Datum → Option Int
  | .number n => n
  | _ => none

/-- `Number.isSafeInteger(x)`, with the value. -/
def Datum.safeInteger (x : Datum) : Option Int :=
  x.integer.filter fun n => decide (-maxSafeInteger ≤ n ∧ n ≤ maxSafeInteger)

/-- `typeof x === 'string'`, with the text. -/
def Datum.text : Datum → Option (List Point)
  | .string t => some t
  | _ => none

/-- A message, by its members.  There are none where it is no JSON text, or where
`!value || typeof value !== 'object' || Array.isArray(value)`. -/
abbrev Message := Option (String → Datum)

/-! ## Octets and integers that come back -/

theorem points_injective {a b : String} (h : points a = points b) : a = b := by
  have hchars : chars a = chars b := List.map_injective_iff.mpr (fun _ _ => Point.char.inj) h
  rw [chars_eq, chars_eq] at hchars
  exact String.toList_injective hchars

/-- What is read from octets has them exactly when they are those of a text. -/
theorem utf8_fromUtf8_iff {bs : List UInt8} :
    utf8 (fromUtf8 bs) = bs ↔ Codec.Utf8.Valid bs := by
  have hencode : utf8 (fromUtf8 bs) = Codec.Utf8.encode (Codec.Utf8.decode bs) := by
    rw [utf8, fromUtf8, List.flatMap_map]
    rfl
  rw [hencode, Codec.Utf8.encode_decode_iff]

theorem fromBase64_encodeRaw (bs : List UInt8) :
    fromBase64 (points (String.ofList (Codec.Base64.encodeRaw bs))) = bs := by
  have hread : ∀ cs : List Char, (cs.map Point.char).filterMap (fun
      | .char c => some c
      | .lone _ => none) = cs := by
    intro cs
    rw [List.filterMap_map]
    exact List.filterMap_some
  rw [fromBase64, points, chars_ofList, hread, Codec.Base64.decode_encodeRaw]

theorem double_eq_self {n : Int} (h : n.natAbs < 2 ^ 53) : double n = n := by
  have hunit : n.natAbs.log2 - 52 = 0 := by
    by_cases hzero : n.natAbs = 0
    · rw [hzero]
      rfl
    · have hlog : n.natAbs.log2 < 53 := (Nat.log2_lt hzero).mpr h
      omega
  have hunrounded : double n = n.sign * (n.natAbs : Int) := by simp [double, hunit, Nat.mod_one]
  rw [hunrounded, Int.sign_mul_natAbs]

theorem le_double {n : Int} (h : 2 ^ 53 ≤ n) : 2 ^ 53 ≤ double n := by
  have hzero : n.natAbs ≠ 0 := by omega
  have hlog : 53 ≤ n.natAbs.log2 := (Nat.le_log2 hzero).mpr (by omega)
  obtain ⟨e, he⟩ : ∃ e, n.natAbs.log2 - 52 = e + 1 := ⟨n.natAbs.log2 - 53, by omega⟩
  have hunit : 0 < 2 ^ (e + 1) := Nat.two_pow_pos _
  have hq : 2 ^ 52 ≤ n.natAbs / 2 ^ (e + 1) := by
    rw [Nat.le_div_iff_mul_le hunit, ← Nat.pow_add]
    have hlog' : 52 + (e + 1) = n.natAbs.log2 := by omega
    rw [hlog']
    exact Nat.log2_self_le hzero
  have hsign : n.sign = 1 := Int.sign_eq_one_of_pos (by omega)
  have htwo : 2 ≤ 2 ^ (e + 1) := by
    rw [Nat.pow_succ]
    have := Nat.one_le_two_pow (n := e)
    omega
  rw [double, he, hsign, Int.one_mul]
  split
  · exact_mod_cast Nat.mul_le_mul hq htwo
  · exact_mod_cast Nat.mul_le_mul (Nat.le_succ_of_le hq) htwo

end Js
