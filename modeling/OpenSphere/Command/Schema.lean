import OpenSphere.Command.Contract
import OpenSphere.Js.Coerce
import OpenSphere.Js.Tree

/-!
# The schemas of commands

`command-schema.js` on the JSON that a provider sends, before anything is known of it.  A property
is looked up by whatever its name is converted to, so a `type` or a `format` need not be a text to
be found, and may be found where no table has it.

`validateSchema` counts how many levels are left where the source counts the depth.  What it
returns is the number of nodes so far.
-/

open Js (Tree Utf16 CodeUnit Number literal)

namespace CommandSchema

abbrev Members := List (Utf16 × Tree)

/-! ## Failures -/

inductive Failure where
  /-- `invalid(message, contract)`. -/
  | invalid (message : Utf16) (contract : Bool)
  | typeError (message : String)

/-- `code` of what `invalid` throws. -/
def Failure.code : Failure → Option String
  | .invalid _ true => some "CommandProviderUnavailable"
  | .invalid _ false => some "ValidationFailed"
  | .typeError _ => none

/-- `status` of what `invalid` throws. -/
def Failure.status : Failure → Option ℕ
  | .invalid _ true => some 503
  | .invalid _ false => some 400
  | .typeError _ => none

/-- `invalid(message, true)`. -/
def unavailable {α : Type} (message : String) : Except Failure α :=
  .error (.invalid (literal message) true)

/-- `invalid(path + message)`. -/
def refused {α : Type} (path : Utf16) (message : String) : Except Failure α :=
  .error (.invalid (path ++ literal message) false)

def typeError {α : Type} (message : String) : Except Failure α := .error (.typeError message)

/-! ## Values -/

/-- `String(x)` of a number. -/
def numberText : Number → Utf16
  | .finite x => Js.utf16 x.text
  | .infinite true => literal "-Infinity"
  | .infinite false => literal "Infinity"

/-- `x === null`. -/
def isNull : Tree → Bool
  | .null => true
  | _ => false

mutual

/-- `String(x)`.  An object with a `toString` of its own, which no JSON makes callable, has no
text. -/
def toText : Tree → Option Utf16
  | .null => some (literal "null")
  | .boolean true => some (literal "true")
  | .boolean false => some (literal "false")
  | .number x => some (numberText x)
  | .string s => some s
  | .array xs => join xs
  | .object ms => if literal "toString" ∈ Tree.keys ms then none else some (literal "[object Object]")

/-- `xs.join(',')`, where an element that is null has no text. -/
def join : List Tree → Option Utf16
  | [] => some []
  | [x] => if isNull x then some [] else toText x
  | x :: xs => do
      let t ← if isNull x then some [] else toText x
      let u ← join xs
      return t ++ literal "," ++ u

end

/-- `x === y`, of what two texts of JSON are read as. -/
def same : Tree → Tree → Bool
  | .null, .null => true
  | .boolean a, .boolean b => a == b
  | .number x, .number y => decide (x = y)
  | .string s, .string t => decide (s = t)
  | _, _ => false

/-- `new Set(xs).size === xs.length`. -/
def distinct : List Tree → Bool
  | [] => true
  | x :: xs => !(xs.any (same x)) && distinct xs

/-- A property, unless it is `undefined`. -/
def get (ms : Members) (name : String) : Option Tree := ms.lookup (literal name)

/-- `x === name`. -/
def isText (name : String) : Option Tree → Bool
  | some (.string s) => decide (s = literal name)
  | _ => false

/-- `Number.isSafeInteger(x) && x >= 0`, and the number. -/
def natural : Option Tree → Option ℕ
  | some (.number x) => (x.safeInteger.filter (0 ≤ ·)).map Int.toNat
  | _ => none

/-- `Number.isFinite(x)`, and the number. -/
def finite : Option Tree → Option ℚ
  | some (.number (.finite x)) => some x.value
  | _ => none

/-! ## Formats -/

def unitChar (u : CodeUnit) : Char :=
  if Js.leading u ∨ Js.trailing u then Char.ofNat 0xFFFD else Char.ofNat u.val

/-- `r.test(t)` for a pattern `^...$` without flags. -/
def test (r : Sql.Pattern) (t : Utf16) : Bool := r List.isEmpty (t.map unitChar)

def FORMATS : List (String × Sql.Pattern) := [
  ("uuid", .seq [.times Command.hexAny 8, .text "-", .times Command.hexAny 4, .text "-",
    .times (fun c => '1' ≤ c && c ≤ '5') 1, .times Command.hexAny 3, .text "-",
    .times (['8', '9', 'a', 'b', 'A', 'B'].contains ·) 1, .times Command.hexAny 3, .text "-",
    .times Command.hexAny 12]),
  ("sha256", .seq [.text "sha256:", .times Sql.hexLower 64]),
  ("git-revision", .times Sql.hexLower 40),
  ("dns-name", .seq [.times Command.lowerOrDigit 1,
    .opt (.seq [.repeated (Sql.orOneOf Command.lowerOrDigit ['.', '-']) 0 (some 251),
      .times Command.lowerOrDigit 1])]),
  ("semver", .seq [.opt (.text "v"), .many1 Sql.digit, .text ".", .many1 Sql.digit, .text ".",
    .many1 Sql.digit])]

/-- `FORMATS[key]`. -/
def formatOf (key : Utf16) : Option Sql.Pattern :=
  (FORMATS.find? fun f => decide (literal f.1 = key)).map Prod.snd

/-- The name of a field: `/^[a-z][a-zA-Z0-9]{0,47}$/`, and not one of three. -/
def safeField (name : Utf16) : Bool :=
  test (.seq [.times Sql.lower 1,
    .repeated (fun c => Sql.lower c || Sql.upper c || Sql.digit c) 0 (some 47)]) name &&
    !(["constructor", "prototype", "__proto__"].any fun n => decide (literal n = name))

/-! ## The keywords of a type -/

/-- What `{ string: [...], ... }[key]` is. -/
inductive Fields where
  | keywords (names : List String)
  /-- A property that every object inherits, which is no list. -/
  | inherited
  | missing
deriving DecidableEq

def typeTable : List (String × List String) := [
  ("string", ["minLength", "maxLength", "format"]), ("integer", ["minimum", "maximum"]),
  ("number", ["minimum", "maximum"]), ("boolean", []),
  ("object", ["properties", "required", "additionalProperties"]),
  ("array", ["items", "minItems", "maxItems"])]

/-- The properties of `Object.prototype`. -/
def objectPrototype : List String :=
  ["constructor", "__defineGetter__", "__defineSetter__", "hasOwnProperty", "__lookupGetter__",
    "__lookupSetter__", "isPrototypeOf", "propertyIsEnumerable", "toString", "valueOf", "__proto__",
    "toLocaleString"]

/-- `{ string: [...], ... }[key]`. -/
def fieldsOf (key : Utf16) : Fields :=
  match typeTable.find? fun f => decide (literal f.1 = key) with
  | some f => .keywords f.2
  | none => if objectPrototype.any fun n => decide (literal n = key) then .inherited else .missing

/-- The key that `schema.type` is converted to. -/
def typeKey (ms : Members) : Option Utf16 :=
  match get ms "type" with
  | some x => toText x
  | none => some (literal "undefined")

/-! ## Values of a schema -/

/-- `schema.properties`, which is an object wherever `validateSchema` lets the schema through. -/
def propertiesOf (ms : Members) : Members :=
  match get ms "properties" with
  | some (.object ps) => ps
  | _ => []

/-- `schema.required`, which is an array wherever `validateSchema` lets the schema through. -/
def requiredOf (ms : Members) : List Tree :=
  match get ms "required" with
  | some (.array rs) => rs
  | _ => []

/-- `own(value, key)` for a key that is a text. -/
def own (ms : Members) : Tree → Bool
  | .string k => decide (k ∈ Tree.keys ms)
  | _ => false

/-- `schema.enum && !schema.enum.includes(value)`. -/
def enumExcludes (ms : Members) (value : Tree) : Bool :=
  match get ms "enum" with
  | some (.array vs) => !(vs.any (same · value))
  | _ => false

/-- `Object.keys(value)` are properties, and what is required is there. -/
def fieldsValid (ms vs : Members) : Bool :=
  (Tree.keys vs).all (fun k => decide (k ∈ Tree.keys (propertiesOf ms))) &&
    (requiredOf ms).all (own vs)

def itemsValid (ms : Members) (xs : List Tree) : Bool :=
  decide ((natural (get ms "minItems")).getD 0 ≤ xs.length) &&
    (natural (get ms "maxItems")).any fun hi => decide (xs.length ≤ hi)

/-- `!schema.format || FORMATS[schema.format].test(value)`. -/
def formatValid (ms : Members) (t : Utf16) : Bool :=
  match get ms "format" with
  | some f => ((toText f).bind formatOf).any (test · t)
  | none => true

def stringValid (ms : Members) (t : Utf16) : Bool :=
  decide ((natural (get ms "minLength")).getD 0 ≤ t.length) &&
    ((natural (get ms "maxLength")).any fun hi => decide (t.length ≤ hi)) && formatValid ms t

def numberValid (ms : Members) (integer : Bool) : Number → Bool
  | .finite x => (!integer || (Number.finite x).safeInteger.isSome) &&
      ((finite (get ms "minimum")).any fun lo => decide (lo ≤ x.value)) &&
      (finite (get ms "maximum")).any fun hi => decide (x.value ≤ hi)
  | .infinite _ => false

def membersOf : Tree → Members
  | .object ms => ms
  | _ => []

mutual

def validateValue (ms : Members) (path : Utf16) (value : Tree) : Except Failure Unit :=
  if enumExcludes ms value then refused path ": value is not in the command contract"
  else if isText "object" (get ms "type") then
    match value with
    | .object vs =>
        if fieldsValid ms vs then validateFields (propertiesOf ms) path vs
        else refused path ": unexpected or missing field"
    | _ => refused path ": unexpected or missing field"
  else if isText "array" (get ms "type") then
    match value with
    | .array xs =>
        if itemsValid ms xs then validateItems (((get ms "items").map membersOf).getD []) path 0 xs
        else refused path ": invalid array"
    | _ => refused path ": invalid array"
  else if isText "string" (get ms "type") then
    match value with
    | .string t => if stringValid ms t then .ok () else refused path ": invalid string"
    | _ => refused path ": invalid string"
  else if isText "integer" (get ms "type") || isText "number" (get ms "type") then
    match value with
    | .number x =>
        if numberValid ms (isText "integer" (get ms "type")) x then .ok ()
        else refused path ": invalid number"
    | _ => refused path ": invalid number"
  else if isText "boolean" (get ms "type") then
    match value with
    | .boolean _ => .ok ()
    | _ => refused path ": invalid boolean"
  else unavailable "Unsupported command schema"

def validateFields (ps : Members) (path : Utf16) : Members → Except Failure Unit
  | [] => .ok ()
  | (k, v) :: vs => do
      match ps.lookup k with
      | some child => validateValue (membersOf child) (path ++ literal "." ++ k) v
      | none => typeError "Cannot read properties of undefined (reading 'enum')"
      validateFields ps path vs

def validateItems (items : Members) (path : Utf16) (i : ℕ) : List Tree → Except Failure Unit
  | [] => .ok ()
  | v :: vs => do
      validateValue items (path ++ literal "[" ++ Js.utf16 (Nat.toDigits 10 i) ++ literal "]") v
      validateItems items path (i + 1) vs

end

/-! ## Schemas -/

def closed (ms : Members) (keywords : List String) : Bool :=
  (Tree.keys ms).all fun k =>
    (["type", "description", "enum"] ++ keywords).any fun n => decide (literal n = k)

/-- The description is a text of 500 units at most. -/
def described (ms : Members) : Bool :=
  match get ms "description" with
  | none => true
  | some (.string t) => decide (t.length ≤ 500)
  | some _ => false

/-- `['string', 'number', 'boolean'].includes(typeof v)`, and `v` is not null. -/
def primitive : Tree → Bool
  | .string _ => true
  | .number _ => true
  | .boolean _ => true
  | _ => false

def enumValid (ms : Members) : Bool :=
  match get ms "enum" with
  | none => true
  | some (.array vs) => !vs.isEmpty && decide (vs.length ≤ 64) && vs.all primitive && distinct vs
  | some _ => false

def checkHead (ms : Members) : Except Failure Unit :=
  match typeKey ms with
  | none => typeError "Cannot convert object to primitive value"
  | some key =>
      match fieldsOf key with
      | .missing => unavailable "Unsupported command schema"
      | .inherited => typeError "fields is not iterable"
      | .keywords names =>
          if !closed ms names then unavailable "Unsupported command schema"
          else if !described ms then unavailable "Invalid schema description"
          else if !enumValid ms then unavailable "Invalid schema enum"
          else .ok ()

def objectValid (ms : Members) : Bool :=
  match get ms "additionalProperties", get ms "properties", get ms "required" with
  | some (.boolean false), some (.object ps), some (.array rs) =>
      decide (ps.length ≤ 32) && distinct rs && rs.all (own ps)
  | _, _, _ => false

def lowerValid (x : Option Tree) (hi : ℕ) : Bool :=
  x.isNone || (natural x).any fun lo => decide (lo ≤ hi)

def arrayValid (ms : Members) : Bool :=
  match natural (get ms "maxItems") with
  | some hi => decide (hi ≤ 64) && lowerValid (get ms "minItems") hi
  | none => false

def lengthsValid (ms : Members) : Bool :=
  match natural (get ms "maxLength") with
  | some hi => decide (1 ≤ hi ∧ hi ≤ 4096) && lowerValid (get ms "minLength") hi
  | none => false

def rangeValid (ms : Members) : Bool :=
  match finite (get ms "minimum"), finite (get ms "maximum") with
  | some lo, some hi => decide (lo ≤ hi) && decide (|lo| ≤ Js.maxSafeInteger) &&
      decide (|hi| ≤ Js.maxSafeInteger)
  | _, _ => false

/-- `schema.format !== undefined && !own(FORMATS, schema.format)`. -/
def checkFormat (ms : Members) : Except Failure Unit :=
  match get ms "format" with
  | none => .ok ()
  | some f =>
      match toText f with
      | none => typeError "Cannot convert object to primitive value"
      | some key =>
          if (formatOf key).isSome then .ok () else unavailable "Strings must be bounded"

/-- `{ ...schema, enum: undefined }`. -/
def withoutEnum (ms : Members) : Members := ms.filter fun m => decide (m.1 ≠ literal "enum")

/-- Every value of the enumeration conforms to the schema without it. -/
def enumConforms (ms : Members) : Bool :=
  match get ms "enum" with
  | some (.array vs) =>
      vs.all fun v => (validateValue (withoutEnum ms) (literal "enum") v).isOk
  | _ => true

/-- The checks of a type, after so many nodes.  `child` is `validateSchema` one level down. -/
def checkType (child : ℕ → Option Tree → Except Failure ℕ) (ms : Members) (nodes : ℕ) :
    Except Failure ℕ :=
  if isText "object" (get ms "type") then
    if objectValid ms then
      (propertiesOf ms).foldlM (fun nodes p =>
        if safeField p.1 then child nodes (some p.2) else unavailable "Unsafe schema field") nodes
    else unavailable "Objects must have closed named fields"
  else if isText "array" (get ms "type") then
    if arrayValid ms then child nodes (get ms "items") else unavailable "Arrays must be bounded"
  else if isText "string" (get ms "type") then
    if lengthsValid ms then (checkFormat ms).map fun _ => nodes
    else unavailable "Strings must be bounded"
  else if isText "integer" (get ms "type") || isText "number" (get ms "type") then
    if rangeValid ms then .ok nodes else unavailable "Numbers must be bounded"
  else .ok nodes

def checkEnum (ms : Members) (nodes : ℕ) : Except Failure ℕ :=
  if enumConforms ms then .ok nodes
  else unavailable "Enum does not conform to its declared type"

/-- `validateSchema(schema, depth, budget)`, with `left` levels left and so many nodes before. -/
def validateSchema : ℕ → ℕ → Option Tree → Except Failure ℕ
  | left + 1, nodes, some (.object ms) =>
      if 256 < nodes + 1 then unavailable "Command schema exceeds its bounds"
      else do
        checkHead ms
        let nodes ← checkType (validateSchema left) ms (nodes + 1)
        checkEnum ms nodes
  | _, _, _ => unavailable "Command schema exceeds its bounds"

/-- `validateSchema(schema)`: depths 0 to 6 are seven levels. -/
def accepts (schema : Tree) : Except Failure ℕ := validateSchema 7 0 (some schema)

end CommandSchema
