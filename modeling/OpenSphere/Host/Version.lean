import OpenSphere.Js.Message
import OpenSphere.Js.Split
import OpenSphere.Sql.Match

/-!
# Versions and ranges of a host

A range says which versions of the host a package works with: alternatives between `||`, each
of them some comparators with a version.  The grammar is small, and what it does not have fails
closed.  All lengths and characters are those of UTF-16.
-/

open Sql

namespace Host

/-! ## Versions -/

structure Version where
  major : Nat
  minor : Nat
  patch : Nat
deriving DecidableEq

/-- `(0|[1-9]\d*)`. -/
def canonicalNumber : Pattern :=
  .alt [.text "0", .seq [.times (fun c => '1' ≤ c && c ≤ '9') 1, .many digit]]

/-- `/^(0|[1-9]\d*)\.(0|[1-9]\d*)\.(0|[1-9]\d*)$/`. -/
def canonicalPattern : Pattern :=
  .seq [canonicalNumber, .text ".", canonicalNumber, .text ".", canonicalNumber]

/-- `Number(t)` of some digits. -/
def number (t : List Char) : Int := Js.double (Nat.ofDigitChars 10 t 0)

/-- `Number.isSafeInteger(x)`. -/
def safe (x : Int) : Bool := decide (-Js.maxSafeInteger ≤ x ∧ x ≤ Js.maxSafeInteger)

/-- `version(value)` of a text. -/
def version (value : List Char) : Option Version :=
  if canonicalPattern List.isEmpty value then
    let parts := (value.splitOn '.').map number
    if parts.all safe then
      match parts with
      | [major, minor, patch] => some ⟨major.toNat, minor.toNat, patch.toNat⟩
      | _ => none
    else none
  else none

def compare (a b : Version) : Int :=
  if a.major ≠ b.major then if a.major < b.major then -1 else 1
  else if a.minor ≠ b.minor then if a.minor < b.minor then -1 else 1
  else if a.patch ≠ b.patch then if a.patch < b.patch then -1 else 1
  else 0

/-! ## Ranges -/

inductive Op where
  | ge
  | le
  | gt
  | lt
  | eq
  | caret
  | tilde
deriving DecidableEq

structure Comparator where
  op : Op
  version : Version
deriving DecidableEq

/-- `(>=|<=|>|<|=|\^|~)?`, with what follows it. -/
def operator : List Char → Op × List Char
  | '>' :: '=' :: cs => (.ge, cs)
  | '<' :: '=' :: cs => (.le, cs)
  | '>' :: cs => (.gt, cs)
  | '<' :: cs => (.lt, cs)
  | '=' :: cs => (.eq, cs)
  | '^' :: cs => (.caret, cs)
  | '~' :: cs => (.tilde, cs)
  | cs => (.eq, cs)

/-- `\d+\.\d+\.\d+`. -/
def numbersPattern : Pattern :=
  .seq [.many1 digit, .text ".", .many1 digit, .text ".", .many1 digit]

/-- What `parse` makes of a term. -/
def comparator (term : List Char) : Option Comparator :=
  let (op, rest) := operator term
  if numbersPattern List.isEmpty rest then (version rest).map (⟨op, ·⟩) else none

/-- `/\s*\|\|\s*/`. -/
def bars : Js.Separator := fun cs =>
  match cs.dropWhile Js.whitespace with
  | '|' :: '|' :: rest => some (rest.dropWhile Js.whitespace)
  | _ => none

/-- `/\s+/`. -/
def gap : Js.Separator
  | [] => none
  | c :: cs => if Js.whitespace c then some (cs.dropWhile Js.whitespace) else none

/-- `[\u0000-\u001f\u007f]`. -/
def control (c : Char) : Bool := decide (c.toNat ≤ 0x1F) || c.toNat == 0x7F

def parse (range : String) : Option (List (List Comparator)) :=
  let units := Js.units range
  let trimmed := Js.strip Js.whitespace units
  if trimmed.isEmpty || decide (128 < units.length) || units.any control then none
  else
    let groups := Js.split bars trimmed
    if 4 < groups.length then none
    else
      let parsed := groups.map fun group => (Js.split gap group).map comparator
      if parsed.all fun group => decide (group.length ≤ 8) && group.all Option.isSome then
        some (parsed.map fun group => group.filterMap id)
      else none

def validHostCompatibility (range : String) : Bool := (parse range).isSome

/-! ## Satisfaction -/

/-- The bound of `^` and `~`, which is not in the range itself. -/
def Comparator.upper (c : Comparator) : Version :=
  if c.op = .tilde then ⟨c.version.major, c.version.minor + 1, 0⟩
  else if 0 < c.version.major then ⟨c.version.major + 1, 0, 0⟩
  else if 0 < c.version.minor then ⟨0, c.version.minor + 1, 0⟩
  else ⟨0, 0, c.version.patch + 1⟩

def Comparator.admits (c : Comparator) (actual : Version) : Bool :=
  match c.op with
  | .ge => decide (0 ≤ compare actual c.version)
  | .le => decide (compare actual c.version ≤ 0)
  | .gt => decide (0 < compare actual c.version)
  | .lt => decide (compare actual c.version < 0)
  | .caret => decide (0 ≤ compare actual c.version ∧ compare actual c.upper < 0)
  | .tilde => decide (0 ≤ compare actual c.version ∧ compare actual c.upper < 0)
  | .eq => decide (compare actual c.version = 0)

def hostCompatibilitySatisfied (actualVersion range : String) : Bool :=
  match version (Js.units actualVersion), parse range with
  | some actual, some groups => groups.any fun group => group.all fun c => c.admits actual
  | _, _ => false

end Host
