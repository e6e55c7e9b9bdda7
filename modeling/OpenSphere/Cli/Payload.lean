import Mathlib.Data.List.Perm.Basic
import Mathlib.Logic.Function.Basic

/-!
# Payloads of extension commands

`dynamicPayload` goes over the flags of a call in the order in which a map is iterated, which is
another one at every run.  A flag is written into the payload at a path, which its name is converted
to, and the conversion takes several names to one path.
-/

namespace Cli

abbrev Octets := List UInt8

/-- A value of JSON whose scalars and arrays are in `α`. -/
inductive Item (α : Type) where
  | scalar (x : α)
  | object (ms : Octets → Option (Item α))

abbrev Object (α : Type) := Octets → Option (Item α)

/-- `ToolInputSchema`, with what flags are read by. -/
inductive InputSchema (α : Type) where
  | mk (type : Octets) (properties : List (Octets × InputSchema α)) (items : Option (InputSchema α))
      (enum : List (Item α)) (secret : Bool) (required : List Octets)

namespace InputSchema

variable {α : Type}

def type : InputSchema α → Octets
  | .mk t _ _ _ _ _ => t

def properties : InputSchema α → List (Octets × InputSchema α)
  | .mk _ ps _ _ _ _ => ps

def items : InputSchema α → Option (InputSchema α)
  | .mk _ _ i _ _ _ => i

def enum : InputSchema α → List (Item α)
  | .mk _ _ _ e _ _ => e

def secret : InputSchema α → Bool
  | .mk _ _ _ _ s _ => s

def required : InputSchema α → List Octets
  | .mk _ _ _ _ _ r => r

end InputSchema

def objectType : Octets := [111, 98, 106, 101, 99, 116]

/-- `file`, `preview` and `apply`. -/
def reservedFlags : List Octets :=
  [[102, 105, 108, 101], [112, 114, 101, 118, 105, 101, 119], [97, 112, 112, 108, 121]]

/-- `strings.ToUpper(part[:1]) + part[1:]`.  A lone octet above ASCII is no character. -/
def capital : Octets → Octets
  | [] => []
  | b :: bs =>
      (if 97 ≤ b ∧ b ≤ 122 then [b - 32] else if 128 ≤ b then [0xEF, 0xBF, 0xBD] else [b]) ++ bs

def kebabToCamel (key : Octets) : Octets :=
  match key.splitOn 45 with
  | [] => []
  | part :: parts => part ++ (parts.map capital).flatten

def flagPath (key : Octets) : List Octets := (key.splitOn 46).map kebabToCamel

inductive PayloadFault where
  | unknownOption (key : Octets)
  | secretOption (key : Octets)
  | pathNotObject (key : Octets)
  | value (message : Octets)
  | invalid (message : Octets)

/-- The other steps: `coerceTypedValue` for the value of a flag, and `validateTypedPayload` for the
payload in the end. -/
structure Steps (α : Type) where
  coerce : (raw : Octets) → InputSchema α → (field : Octets) → Except PayloadFault (Item α)
  validate : Object α → Except PayloadFault (Object α)
  /-- The value of a flag of a tool without a schema. -/
  text : Octets → α

variable {α : Type}

def objectAt (current : Object α) (part : Octets) : Object α :=
  match current part with
  | some (.object ms) => ms
  | _ => fun _ => none

/-- The loop of `setTypedFlag`. -/
def setParts (S : Steps α) (key raw : Octets) :
    List Octets → Object α → InputSchema α → Except PayloadFault (Object α)
  | [], current, _ => .ok current
  | part :: rest, current, schema =>
      match schema.properties.lookup part with
      | none => .error (.unknownOption key)
      | some property =>
          if property.secret then .error (.secretOption key)
          else if rest = [] then
            (S.coerce raw property (45 :: 45 :: key)).map fun value =>
              Function.update current part (some value)
          else if property.type ≠ objectType then .error (.pathNotObject key)
          else (setParts S key raw rest (objectAt current part) property).map fun next =>
            Function.update current part (some (.object next))

def setTypedFlag (S : Steps α) (schema : InputSchema α) (payload : Object α)
    (flag : Octets × Octets) : Except PayloadFault (Object α) :=
  setParts S flag.1 flag.2 (flagPath flag.1) payload schema

def jsonFlagPayload (flags : List (Octets × Octets)) : Octets → Option Octets :=
  flags.foldl (fun payload flag => Function.update payload (kebabToCamel flag.1) (some flag.2))
    fun _ => none

/-- `dynamicPayload(tool, flags, in)`, with the flags in the order of the iteration and what comes of
the file of the call. -/
def dynamicPayload (S : Steps α) (inputSchema : Option (InputSchema α))
    (file : Except PayloadFault (Object α)) (flags : List (Octets × Octets)) :
    Except PayloadFault (Object α) := do
  let payload ← file
  match inputSchema with
  | none => return fun key =>
      if key ∈ reservedFlags then payload key
      else ((jsonFlagPayload flags key).map fun raw => .scalar (S.text raw)).or (payload key)
  | some schema =>
      let payload ← (flags.filter fun flag => flag.1 ∉ reservedFlags).foldlM (setTypedFlag S schema)
        payload
      S.validate payload

end Cli
