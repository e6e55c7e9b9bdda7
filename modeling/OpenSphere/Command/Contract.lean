import OpenSphere.Js.Json
import OpenSphere.Sql.Table

/-!
# Command contracts

The commands of the OS Shell, and what a request has to be to name one of them.  A command
is native or comes from a provider, whose contract was verified when it was loaded.

A schema is one that `validateSchema` lets through, with what `validateValue` reads of it.
What `validateValue` accepts is `plain` (`validateValue_plain`), so its text stands for it.
-/

open Sql
open Js (Value Values Members Decimal)

namespace Command

/-! ## Failures -/

/-- What is thrown.  An error that `fail` does not make has a message only. -/
structure Failure where
  message : String
  status : Option Int := none
  code : Option String := none
  sideEffect : Option String := none
deriving DecidableEq

def fail {α : Type} (status : Int) (code message sideEffect : String) : Except Failure α :=
  .error ⟨message, some status, some code, some sideEffect⟩

/-- `fail(status, code, message)`. -/
def refuse {α : Type} (status : Int) (code message : String) : Except Failure α :=
  fail status code message "none"

/-- What an object without a primitive value throws where a text is needed. -/
def typeError : Failure := { message := "Cannot convert object to primitive value" }

/-- `String(x)` where `x` is tested. -/
def asText (x : Value) : Except Failure String :=
  match x.toText with
  | some t => .ok t
  | none => .error typeError

/-! ## Formats -/

/-- A hexadecimal digit of either case. -/
def hexAny (c : Char) : Bool := hexLower c || ('A' ≤ c && c ≤ 'F')

def lowerOrDigit (c : Char) : Bool := lower c || digit c

/-- `UUID.test(t)`. -/
def uuidFormat : String → Bool :=
  Js.test (.seq [.times hexAny 8, .text "-", .times hexAny 4, .text "-",
    .times (fun c => '1' ≤ c && c ≤ '5') 1, .times hexAny 3, .text "-",
    .times (['8', '9', 'a', 'b', 'A', 'B'].contains ·) 1, .times hexAny 3, .text "-",
    .times hexAny 12])

/-- `REVISION.test(t)`. -/
def revisionFormat : String → Bool := Js.test (.seq [.text "sha256:", .times hexLower 64])

inductive Format where
  | uuid
  | sha256
  | gitRevision
  | dnsName
  | semver
deriving DecidableEq

/-- `FORMATS[format].test(t)`. -/
def Format.test : Format → String → Bool
  | .uuid => uuidFormat
  | .sha256 => revisionFormat
  | .gitRevision => Js.test (.times hexLower 40)
  | .dnsName => Js.test (.seq [.times lowerOrDigit 1,
      .opt (.seq [.repeated (orOneOf lowerOrDigit ['.', '-']) 0 (some 251),
        .times lowerOrDigit 1])])
  | .semver => Js.test (.seq [.opt (.text "v"), .many1 digit, .text ".", .many1 digit, .text ".",
      .many1 digit])

/-- The name of a field: `/^[a-z][a-zA-Z0-9]{0,47}$/`, and not one that every object has. -/
def fieldNameFormat (t : String) : Bool :=
  Js.test (.seq [.times lower 1, .repeated (fun c => lower c || upper c || digit c) 0 (some 47)]) t &&
    !(["constructor", "prototype"].contains t)

/-- `/^[a-z0-9]+(?:[.-][a-z0-9]+)+$/`. -/
def commandFormat (t : String) : Bool :=
  let segments := (chars t).splitOnP (['.', '-'].contains ·)
  decide (2 ≤ segments.length) && segments.all fun s => !s.isEmpty && s.all lowerOrDigit

/-! ## Schemas -/

structure FieldName where
  text : String
  format : fieldNameFormat text = true

mutual

inductive Schema where
  | string (enum : Option (List String)) (minLength : Option Nat) (maxLength : Nat)
      (format : Option Format)
  /-- A number, and whether it has to be an integer. -/
  | number (enum : Option (List String)) (integer : Bool) (minimum maximum : Decimal)
  | boolean (enum : Option (List Bool))
  | array (minItems : Option Nat) (maxItems : Nat) (items : Schema)
  | object (properties : Properties) (required : List String)

inductive Properties where
  | nil
  | cons (name : FieldName) (child : Schema) (rest : Properties)

end

/-- `Object.keys(properties)`. -/
def Properties.keys : Properties → List String
  | .nil => []
  | .cons name _ rest => name.text :: rest.keys

/-- `properties[name]`. -/
def Properties.get (name : String) : Properties → Option Schema
  | .nil => none
  | .cons name' child rest => if name'.text = name then some child else rest.get name

/-- What `validateValue` throws. -/
def invalid (message : String) : Except Failure Unit := refuse 400 "ValidationFailed" message

/-- `schema.enum && !schema.enum.includes(value)`. -/
def enumExcludes {α : Type} [DecidableEq α] (enum : Option (List α)) (x : Option α) : Bool :=
  enum.any fun l => x.all fun x => !l.contains x

def stringValid (minLength : Option Nat) (maxLength : Nat) (format : Option Format) :
    Value → Bool
  | .string t => decide (minLength.getD 0 ≤ Js.length t ∧ Js.length t ≤ maxLength) &&
      format.all (·.test t)
  | _ => false

def numberValid (integer : Bool) (minimum maximum : Decimal) : Value → Bool
  | .number t => Js.finite t && (Decimal.ofText t).any fun x =>
      (!integer || x.safeInteger) && !x.lt minimum && !maximum.lt x
  | _ => false

def itemsValid (minItems : Option Nat) (maxItems : Nat) : Value → Bool
  | .array xs => decide (minItems.getD 0 ≤ xs.length ∧ xs.length ≤ maxItems)
  | _ => false

def fieldsValid (properties : Properties) (required : List String) : Value → Bool
  | .object ms => ms.keys.all properties.keys.contains && required.all ms.keys.contains
  | _ => false

def stringOf : Value → Option String
  | .string t => some t
  | _ => none

def numberOf : Value → Option String
  | .number t => some t
  | _ => none

def booleanOf : Value → Option Bool
  | .boolean b => some b
  | _ => none

/-- The checks of `validateValue` on a value by itself. -/
def validateHere (schema : Schema) (value : Value) (path : String) : Except Failure Unit :=
  match schema with
  | .string enum minLength maxLength format =>
      if enumExcludes enum (stringOf value) then
        invalid (path ++ ": value is not in the command contract")
      else if stringValid minLength maxLength format value then .ok ()
      else invalid (path ++ ": invalid string")
  | .number enum integer minimum maximum =>
      if enumExcludes enum (numberOf value) then
        invalid (path ++ ": value is not in the command contract")
      else if numberValid integer minimum maximum value then .ok ()
      else invalid (path ++ ": invalid number")
  | .boolean enum =>
      if enumExcludes enum (booleanOf value) then
        invalid (path ++ ": value is not in the command contract")
      else if (booleanOf value).isSome then .ok ()
      else invalid (path ++ ": invalid boolean")
  | .array minItems maxItems _ =>
      if itemsValid minItems maxItems value then .ok () else invalid (path ++ ": invalid array")
  | .object properties required =>
      if fieldsValid properties required value then .ok ()
      else invalid (path ++ ": unexpected or missing field")

mutual

def validateValue (schema : Schema) (value : Value) (path : String) : Except Failure Unit := do
  validateHere schema value path
  match value with
  | .array xs =>
      match schema with
      | .array _ _ items => validateItems items xs path 0
      | _ => .ok ()
  | .object ms =>
      match schema with
      | .object properties _ => validateFields properties ms path
      | _ => .ok ()
  | _ => .ok ()

def validateItems (items : Schema) (xs : Values) (path : String) (i : Nat) :
    Except Failure Unit :=
  match xs with
  | .nil => .ok ()
  | .cons x xs => do
      validateValue items x (path ++ "[" ++ decimal i ++ "]")
      validateItems items xs path (i + 1)

def validateFields (properties : Properties) (ms : Members) (path : String) :
    Except Failure Unit :=
  match ms with
  | .nil => .ok ()
  | .cons k x ms => do
      match properties.get k with
      | some child => validateValue child x (path ++ "." ++ k)
      | none => .ok ()
      validateFields properties ms path

end

theorem get_of_mem {k : String} : ∀ {properties : Properties}, k ∈ properties.keys →
    ∃ child, properties.get k = some child
  | .nil, h => by simp [Properties.keys] at h
  | .cons name child rest, h => by
      rw [Properties.get]
      split
      next => exact ⟨child, rfl⟩
      next hne =>
        rcases List.mem_cons.mp h with rfl | hrest
        · exact absurd rfl hne
        · exact get_of_mem hrest

theorem validateHere_eq_ok {schema : Schema} {value : Value} {path : String}
    (h : validateHere schema value path = .ok ()) :
    match value with
    | .string _ => True
    | .boolean _ => True
    | .number t => Js.finite t = true
    | .array _ => ∃ minItems maxItems items, schema = .array minItems maxItems items
    | .object ms => ∃ properties required, schema = .object properties required ∧
        ∀ k ∈ ms.keys, k ∈ properties.keys
    | _ => False := by
  cases schema with
  | string enum minLength maxLength format | boolean enum =>
      simp only [validateHere, invalid, refuse, fail] at h
      split_ifs at h with _ hvalid
      cases value <;> trivial
  | number enum integer minimum maximum =>
      simp only [validateHere, invalid, refuse, fail] at h
      split_ifs at h with _ hvalid
      cases value with
      | number t =>
          rw [numberValid, Bool.and_eq_true] at hvalid
          exact hvalid.1
      | _ => simp [numberValid] at hvalid
  | array minItems maxItems items =>
      simp only [validateHere, invalid, refuse, fail] at h
      split_ifs at h with hvalid
      cases value with
      | array xs => exact ⟨_, _, _, rfl⟩
      | _ => simp [itemsValid] at hvalid
  | object properties required =>
      simp only [validateHere, invalid, refuse, fail] at h
      split_ifs at h with hvalid
      cases value with
      | object ms =>
          refine ⟨_, _, rfl, fun k hk => ?_⟩
          rw [fieldsValid, Bool.and_eq_true] at hvalid
          exact List.contains_iff_mem.mp (List.all_eq_true.mp hvalid.1 k hk)
      | _ => simp [fieldsValid] at hvalid

theorem validateHere_of_valid {schema : Schema} {value : Value} {path : String}
    (h : validateValue schema value path = .ok ()) : validateHere schema value path = .ok () := by
  unfold validateValue at h
  obtain ⟨_, hhere, -⟩ := bind_eq_ok.mp h
  exact hhere

mutual

theorem validateValue_plain : ∀ {schema : Schema} {value : Value} {path : String},
    validateValue schema value path = .ok () → value.plain = true
  | _, .undefined, _, h | _, .null, _, h => (validateHere_eq_ok (validateHere_of_valid h)).elim
  | _, .string _, _, _ | _, .boolean _, _, _ => rfl
  | _, .number _, _, h => validateHere_eq_ok (validateHere_of_valid h)
  | _, .array xs, _, h => by
      obtain ⟨minItems, maxItems, items, rfl⟩ := validateHere_eq_ok (validateHere_of_valid h)
      rw [validateValue, bind_eq_ok] at h
      obtain ⟨_, _, hparts⟩ := h
      exact validateItems_plain hparts
  | _, .object ms, _, h => by
      obtain ⟨properties, required, rfl, hkeys⟩ := validateHere_eq_ok (validateHere_of_valid h)
      rw [validateValue, bind_eq_ok] at h
      obtain ⟨_, _, hparts⟩ := h
      exact validateFields_plain hkeys hparts

theorem validateItems_plain : ∀ {items : Schema} {xs : Values} {path : String} {i : Nat},
    validateItems items xs path i = .ok () → xs.plain = true
  | _, .nil, _, _, _ => rfl
  | _, .cons x xs, _, _, h => by
      rw [validateItems, bind_eq_ok] at h
      obtain ⟨_, hx, hxs⟩ := h
      rw [Values.plain, validateValue_plain hx, validateItems_plain hxs, Bool.true_and]

theorem validateFields_plain : ∀ {properties : Properties} {ms : Members} {path : String},
    (∀ k ∈ ms.keys, k ∈ properties.keys) → validateFields properties ms path = .ok () →
      ms.plain = true
  | _, .nil, _, _, _ => rfl
  | properties, .cons k x ms, _, hkeys, h => by
      obtain ⟨child, hchild⟩ := get_of_mem (hkeys k (List.mem_cons_self ..))
      simp only [validateFields, hchild, bind_eq_ok] at h
      obtain ⟨_, hx, hms⟩ := h
      rw [Members.plain, validateValue_plain hx,
        validateFields_plain (fun k hk => hkeys k (List.mem_cons_of_mem _ hk)) hms, Bool.true_and]

end

/-! ## Commands -/

inductive Owner where
  /-- The console itself, at a route of its own. -/
  | native
  /-- A module, at its origin, by a contract with a digest. -/
  | provider (origin contractSha256 : String)
deriving DecidableEq

structure Definition where
  id : String
  owner : String
  read : Bool
  properties : Properties
  required : List String
  kind : Owner

/-- `def.requiredPermission`. -/
def Definition.requiredPermission (d : Definition) : Option String :=
  match d.kind with
  | .native => some "console.extension.install"
  | .provider _ _ => none

/-- `def.contractSha256`, where `def.provider`. -/
def Definition.contract (d : Definition) : Option String :=
  match d.kind with
  | .native => none
  | .provider _ contractSha256 => some contractSha256

def nativeDefinition (id : String) (read : Bool) (properties : Properties) : Definition where
  id := id
  owner := "console"
  read := read
  properties := properties
  required := properties.keys
  kind := .native

/-- `text(maxLength, { minLength })`. -/
def textSchema (minLength maxLength : Nat) : Schema := .string none (some minLength) maxLength none

/-- `text(maxLength, { format })`. -/
def formatSchema (maxLength : Nat) (format : Format) : Schema :=
  .string none none maxLength (some format)

def descriptorId : FieldName := ⟨"descriptorId", by rfl⟩

def catalogRevision : FieldName := ⟨"catalogRevision", by rfl⟩

def reason : FieldName := ⟨"reason", by rfl⟩

def operationId : FieldName := ⟨"operationId", by rfl⟩

def definitions : List Definition := [
  nativeDefinition "console.modules.catalog" true .nil,
  nativeDefinition "console.modules.inspect" true
    (.cons descriptorId (textSchema 1 128) (.cons catalogRevision (formatSchema 71 .sha256) .nil)),
  nativeDefinition "console.modules.install" false
    (.cons descriptorId (textSchema 1 128) (.cons catalogRevision (formatSchema 71 .sha256)
      (.cons reason (textSchema 8 500) .nil))),
  nativeDefinition "console.modules.operation" true
    (.cons operationId (formatSchema 36 .uuid) .nil)]

/-- `Object.hasOwn(definitions, command)`, with the definition. -/
def ownDefinition (command : Value) : Except Failure (Option Definition) := do
  let id ← asText command
  return definitions.find? fun d => d.id == id

/-! ## Requests -/

/-- `exact(value, fields)`, with the members. -/
def exact (value : Value) (fields : List String) : Except Failure Members :=
  match value with
  | .object ms =>
      if ms.keys.all fields.contains then .ok ms
      else refuse 400 "ValidationFailed" "허용된 명령 필드만 사용할 수 있습니다."
  | _ => refuse 400 "ValidationFailed" "허용된 명령 필드만 사용할 수 있습니다."

/-- `typeof reason !== 'string' || reason.trim().length < 8 || reason.length > 500`. -/
def reasonInvalid : Value → Bool
  | .string t => decide (Js.length (Js.trim t) < 8 ∨ 500 < Js.length t)
  | _ => true

def commandNotFound {α : Type} : Except Failure α :=
  refuse 404 "CommandNotFound" "등록되지 않은 OS Shell 명령입니다."

/-- `x === undefined`. -/
def absent : Value → Bool
  | .undefined => true
  | _ => false

mutual

/-- `REVISION.test(x)`.  An array of one element has the text of the element, and nothing else
that is not a text has one of the format. -/
def isRevision : Value → Bool
  | .string t => revisionFormat t
  | .array xs => isRevisionAlone xs
  | _ => false

def isRevisionAlone : Values → Bool
  | .cons x .nil => isRevision x
  | _ => false

end

def validate (body : Value) (provider : Option Definition) : Except Failure Definition := do
  let _ ← exact body ["command", "arguments", "requestId", "reviewRevision"]
  let own ← ownDefinition (body.get "command")
  match own.or provider with
  | none => commandNotFound
  | some d =>
      let requestId ← asText ((body.get "requestId").or (.string ""))
      if !uuidFormat requestId then
        refuse 400 "ValidationFailed" "명령 requestId는 UUID여야 합니다."
      else
        let _ ← exact (body.get "arguments") d.properties.keys
        validateValue (.object d.properties d.required) (body.get "arguments") "arguments"
        let review := body.get "reviewRevision"
        if d.kind = .native ∧ absent review = false then
          refuse 400 "ValidationFailed" "설치 명령은 arguments의 catalogRevision을 사용합니다."
        else if !d.read && reasonInvalid ((body.get "arguments").get "reason") then
          refuse 400 "ValidationFailed" "변경 사유를 8~500자로 입력하세요."
        else if absent review then .ok d
        else
          let _ ← asText review
          if isRevision review then .ok d
          else refuse 400 "ValidationFailed" "검토 revision 형식이 올바르지 않습니다."

mutual

theorem isRevision_plain : ∀ {x : Value}, isRevision x = true → x.plain = true
  | .string _, _ => rfl
  | .array _, h => isRevisionAlone_plain h
  | .undefined, h | .null, h | .boolean _, h | .number _, h | .object _, h => by cases h

theorem isRevisionAlone_plain : ∀ {xs : Values}, isRevisionAlone xs = true → xs.plain = true
  | .cons x .nil, h => by
      rw [Values.plain, isRevision_plain h]
      rfl
  | .nil, h => by cases h
  | .cons _ (.cons _ _), h => by cases h

end

theorem validate_eq_ok {body : Value} {found : Option Definition} {d : Definition}
    (h : validate body found = .ok d) : (body.get "arguments").plain = true ∧
      (absent (body.get "reviewRevision") = false → (body.get "reviewRevision").plain = true) := by
  unfold validate at h
  obtain ⟨_, -, h⟩ := bind_eq_ok.mp h
  obtain ⟨own, -, h⟩ := bind_eq_ok.mp h
  split at h
  next => cases h
  next d' _ =>
    obtain ⟨requestId, -, h⟩ := bind_eq_ok.mp h
    split at h
    next => cases h
    next =>
      obtain ⟨_, -, h⟩ := bind_eq_ok.mp h
      obtain ⟨_, hvalid, h⟩ := bind_eq_ok.mp h
      refine ⟨validateValue_plain hvalid, fun hreview => ?_⟩
      dsimp only at h
      split at h
      next => cases h
      next =>
        split at h
        next => cases h
        next =>
          rw [hreview, if_neg (by decide)] at h
          obtain ⟨_, -, h⟩ := bind_eq_ok.mp h
          split at h
          next hrevision => exact isRevision_plain hrevision
          next => cases h

structure Route where
  method : String
  path : String
  body : Option Value
  /-- The text that the idempotency key is the digest of. -/
  keyed : Option (List Char)

def target (command args subjectId requestId : Value) : Except Failure Route :=
  match command with
  | .string "console.modules.catalog" =>
      .ok ⟨"GET", "/api/admin/extensions/catalog", none, none⟩
  | .string "console.modules.inspect" =>
      .ok ⟨"POST", "/api/admin/extensions/inspect", some args, none⟩
  | .string "console.modules.install" =>
      .ok ⟨"POST", "/api/admin/extensions/install", some args,
        some (Value.stringify (.array (.cons subjectId (.cons requestId (.cons command .nil)))))⟩
  | .string "console.modules.operation" => do
      let id ← asText (args.get "operationId")
      return ⟨"GET", "/api/platform/operations/" ++ id, none, none⟩
  | _ => .error {
      message := "Native command not found", status := some 404, code := some "CommandNotFound" }

end Command
