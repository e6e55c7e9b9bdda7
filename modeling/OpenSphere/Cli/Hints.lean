import OpenSphere.Cli.Payload

/-!
# Hints for missing inputs

A payload that lacks a required property is answered with the option that the property is to be given
by.  The option is made from the path of the property.
-/

namespace Cli

variable {α : Type}

def small (b : UInt8) : UInt8 := if 65 ≤ b ∧ b ≤ 90 then b + 32 else b

/-- `strings.ToLower`, on texts in UTF-8.  It goes character by character, and makes no hyphen and no
dot of another character. -/
structure ToLower where
  run : Octets → Octets
  nil : run [] = []
  ascii : ∀ s b t, b < 128 → run (s ++ b :: t) = run s ++ small b :: run t
  hyphen : ∀ s, 45 ∈ run s → 45 ∈ s
  dot : ∀ s, 46 ∈ run s → 46 ∈ s

/-- What is seen of a value that is no object: whether it is null or is printed as blanks, and what
is in it if it is an array. -/
structure View (α : Type) where
  blank : α → Bool
  elements : α → List (Item α)

/-- `found && value != nil && strings.TrimSpace(fmt.Sprint(value)) != ""`. -/
def View.given (V : View α) : Option (Item α) → Bool
  | none => false
  | some (.scalar x) => !V.blank x
  | some (.object _) => true

def dash (b : UInt8) : Octets := if 65 ≤ b ∧ b ≤ 90 then [45, b] else [b]

/-- Hyphens in front of the capitals but at the beginning. -/
def dashes : Octets → Octets
  | [] => []
  | b :: bs => b :: bs.flatMap dash

def camelPathToKebab (L : ToLower) (path : Octets) : Octets :=
  [46].intercalate ((path.splitOn 46).map fun part => L.run (dashes part))

structure MissingInput (α : Type) where
  path : Octets
  option : Octets
  type : Octets
  secret : Bool
  fileOnly : Bool
  enum : List (Item α)

def request : Octets := [114, 101, 113, 117, 101, 115, 116]

/-- `strings.TrimPrefix(path, "request.")`. -/
def optionPath (path : Octets) : Octets :=
  if request ++ [46] <+: path then path.drop (request.length + 1) else path

def missingInput (L : ToLower) (schema : InputSchema α) (field required : Octets) : MissingInput α :=
  let path := field ++ 46 :: required
  let property := schema.properties.lookup required
  let secret := property.any InputSchema.secret
  let fileOnly := (optionPath path).contains 91 || secret
  { path, secret, fileOnly
    option := if fileOnly then [] else 45 :: 45 :: camelPathToKebab L (optionPath path)
    type := (property.map InputSchema.type).getD []
    enum := (property.map InputSchema.enum).getD [] }

def arrayType : Octets := [97, 114, 114, 97, 121]

/-- `%d`. -/
def digits (n : Nat) : Octets := (Nat.toDigits 10 n).map fun d => UInt8.ofNat d.toNat

theorem sizeOf_lookup {schema property : InputSchema α} {key : Octets}
    (h : schema.properties.lookup key = some property) : sizeOf property < sizeOf schema := by
  obtain ⟨type, properties, items, enum, secret, required⟩ := schema
  obtain ⟨before, after, heq, -⟩ := List.lookup_eq_some_iff.mp h
  have hmem : (key, property) ∈ properties := by
    rw [show properties = _ from heq]
    exact List.mem_append_right before (List.mem_cons_self ..)
  have := List.sizeOf_lt_of_mem hmem
  simp only [Prod.mk.sizeOf_spec] at this
  simp only [InputSchema.mk.sizeOf_spec]
  omega

theorem sizeOf_items {schema items : InputSchema α} (h : schema.items = some items) :
    sizeOf items < sizeOf schema := by
  cases schema
  cases h
  simp only [InputSchema.mk.sizeOf_spec, Option.some.sizeOf_spec]
  omega

def collectMissingInputs (L : ToLower) (V : View α) (payload : Object α) (schema : InputSchema α)
    (field : Octets) : List (MissingInput α) :=
  (schema.required.filter fun name => !V.given (payload name)).map (missingInput L schema field) ++
    ((schema.properties.map Prod.fst).mergeSort (· ≤ ·)).flatMap fun key =>
      match h : schema.properties.lookup key with
      | none => []
      | some property =>
          if property.type = objectType then
            match payload key with
            | some (.object o) => collectMissingInputs L V o property (field ++ 46 :: key)
            | _ => []
          else if property.type = arrayType then
            match hitems : property.items, payload key with
            | some items, some (.scalar x) =>
                if items.type = objectType then
                  (V.elements x).zipIdx.flatMap fun
                    | (.object o, index) => collectMissingInputs L V o items
                        (field ++ 46 :: key ++ 91 :: digits index ++ [93])
                    | _ => []
                else []
            | _, _ => []
          else []
termination_by sizeOf schema
decreasing_by
  · exact sizeOf_lookup h
  · exact Nat.lt_trans (sizeOf_items hitems) (sizeOf_lookup h)

end Cli
