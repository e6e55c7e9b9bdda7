import OpenSphere.Js.Json
import OpenSphere.Js.Numeral

/-!
# `Number`

`Number(x)` of a value that JSON can carry.  A text is read as a numeral, which need not be one of
JSON: zeros may lead, digits may be missing on one side of the point, and there are literals in
the bases 16, 8 and 2.
-/

open Sql (chars digit)

namespace Js

def readBase (base : ℕ) (cs : List Char) : Option ℕ :=
  if cs = [] then none
  else cs.foldlM (fun n c => ((Sql.hexValue c).filter (· < base)).map (base * n + ·)) 0

def decimalLiteral (cs : List Char) : Option Numeral :=
  let whole := cs.takeWhile digit
  let rest := cs.dropWhile digit
  let fraction := if rest.head? = some '.' then rest.tail.takeWhile digit else []
  let rest := if rest.head? = some '.' then rest.tail.dropWhile digit else rest
  match scanPower rest with
  | some (power, []) => if whole = [] ∧ fraction = [] then none else some ⟨whole, fraction, power⟩
  | _ => none

def signedLiteral (negative : Bool) (cs : List Char) : Option Number :=
  if cs = chars "Infinity" then some (.infinite negative)
  else (decimalLiteral cs).map fun n => Number.ofRat negative n.value

/-- `Number(t)` of a text, unless it is `NaN`. -/
def numberOfText (t : String) : Option Number :=
  match chars (trim t) with
  | [] => some (Number.ofRat false 0)
  | '-' :: cs => signedLiteral true cs
  | '+' :: cs => signedLiteral false cs
  | '0' :: c :: cs =>
      if c = 'x' ∨ c = 'X' then (readBase 16 cs).map fun n => Number.ofRat false n
      else if c = 'o' ∨ c = 'O' then (readBase 8 cs).map fun n => Number.ofRat false n
      else if c = 'b' ∨ c = 'B' then (readBase 2 cs).map fun n => Number.ofRat false n
      else signedLiteral false ('0' :: c :: cs)
  | cs => signedLiteral false cs

/-- `Number.isSafeInteger(x)`, and the integer. -/
def Number.safeInteger : Number → Option ℤ
  | .finite x => if x.value.den = 1 ∧ |x.value| ≤ maxSafeInteger then some x.value.num else none
  | .infinite _ => none

/-- The text that `Number(x)` reads, unless `x` cannot be converted. -/
def Value.numeric : Value → Option String
  | .undefined => some "NaN"
  | .null => some "0"
  | .boolean b => some (if b then "1" else "0")
  | x => x.toText

end Js
