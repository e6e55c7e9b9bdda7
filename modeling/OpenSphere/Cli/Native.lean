import OpenSphere.Cli.Dynamic

/-!
# Native commands

`validateNativeCommandOptions` reads the arguments of a native command by the rules of the command,
which say which options take a value.  The handlers read them again without rules:
`parseLongFlags` takes the next argument for a value if it does not begin with two dashes, and
`nonFlagArgs` the arguments in front of the first that does.

The reading of the validator keeps the values and the positional arguments that the source only
checks and counts.
-/

open Sql (chars startsWith)

namespace Cli

/-- The contract of the native commands: their names, the options of each command and subcommand
with whether they take a value, the numbers of positional arguments, and what
`validateNativeOptionValue` says of a value. -/
structure NativeContract where
  commands : List String
  rules : List (String × List (String × Bool))
  arity : List (String × ℕ × ℕ)
  check : (name value : String) → Option String

abbrev Flags := String → Option String

def nativeRuleFor (C : NativeContract) (args : List String) : String × List (String × Bool) :=
  let key (n : ℕ) := join ((args.take n).map toLower)
  let first := [3, 2, 1].findSome? fun n =>
    if n ≤ args.length && (args.take n).all fun a => !startsWith a "-" then
      (C.rules.lookup (key n)).map fun rules => (key n, rules)
    else none
  first.getD (toLower (args.headD ""), (C.rules.lookup (toLower (args.headD ""))).getD [])

/-- The name of an option, and the value behind `=`. -/
def cutOption (arg : String) : String × Option String :=
  let nameValue := (chars arg).drop 2
  let name := nameValue.takeWhile (· != '=')
  (String.ofList name,
    if name = nameValue then none else some (String.ofList (nameValue.drop (name.length + 1))))

inductive UsageFault where
  | unknownOption (arg : String)
  | repeatedOption (name : String)
  | valueUnexpected (name : String)
  | valueMissing (name : String)
  | valueInvalid (name message : String)
  | arity
deriving DecidableEq

structure Reading where
  options : Flags
  positionals : List String

def Reading.set (r : Reading) (name value : String) : Reading :=
  { r with options := Function.update r.options name (some value) }

def checkValue (C : NativeContract) (name value : String) : Except UsageFault Unit :=
  match C.check name value with
  | some message => .error (.valueInvalid name message)
  | none => .ok ()

/-- The loop of `validateNativeCommandOptions`. -/
def readOptions (C : NativeContract) (rules : List (String × Bool)) (r : Reading) :
    List String → Except UsageFault Reading
  | [] => .ok r
  | arg :: rest =>
      if !startsWith arg "-" then
        readOptions C rules { r with positionals := r.positionals ++ [arg] } rest
      else if !startsWith arg "--" || arg == "--" then .error (.unknownOption arg)
      else
        let name := (cutOption arg).1
        match rules.lookup name, (cutOption arg).2 with
        | none, _ => .error (.unknownOption name)
        | some requiresValue, inlineValue =>
            if (r.options name).isSome then .error (.repeatedOption name)
            else if requiresValue then
              match inlineValue, rest with
              | some value, rest =>
                  if trimSpace value = "" then .error (.valueMissing name)
                  else (checkValue C name value).bind fun _ =>
                    readOptions C rules (r.set name value) rest
              | none, [] => .error (.valueMissing name)
              | none, value :: rest =>
                  if startsWith value "--" then .error (.valueMissing name)
                  else (checkValue C name value).bind fun _ =>
                    readOptions C rules (r.set name value) rest
            else if inlineValue.isSome then .error (.valueUnexpected name)
            else readOptions C rules (r.set name "true") rest

/-- The number of words of the rule that the arguments begin with. -/
def prefixLength (C : NativeContract) (args : List String) : ℕ :=
  (fields (nativeRuleFor C args).1).length

def nativeReading (C : NativeContract) (args : List String) : Except UsageFault Reading :=
  (readOptions C (nativeRuleFor C args).2 ⟨fun _ => none, []⟩
      (args.drop (prefixLength C args))).bind fun r =>
    match C.arity.lookup (nativeRuleFor C args).1 with
    | some (lo, hi) =>
        if r.positionals.length < lo ∨ hi < r.positionals.length then .error .arity else .ok r
    | none => .ok r

def validateNativeCommandOptions (C : NativeContract) (args : List String) :
    Except UsageFault Unit :=
  match args with
  | [] => .ok ()
  | command :: _ =>
      if toLower command ∈ C.commands then (nativeReading C args).map fun _ => () else .ok ()

/-- The loop of `parseLongFlags`. -/
def parseFlags (flags : Flags) : List String → Flags
  | [] => flags
  | arg :: rest =>
      if !startsWith arg "--" then parseFlags flags rest
      else
        let name := (cutOption arg).1
        match (cutOption arg).2, rest with
        | some value, rest => parseFlags (Function.update flags name (some value)) rest
        | none, [] => Function.update flags name (some "true")
        | none, value :: rest =>
            if !startsWith value "--" then parseFlags (Function.update flags name (some value)) rest
            else parseFlags (Function.update flags name (some "true")) (value :: rest)

def parseLongFlags : List String → Flags := parseFlags fun _ => none

/-! ## The commands of the tool -/

def listOptionRules : List (String × Bool) :=
  [("filter", true), ("sort-by", true), ("desc", false), ("limit", true)]

def nativeOptionRules : List (String × List (String × Bool)) :=
  [("shell execute", [("id", true), ("reason", true), ("confirm", true), ("chart-version", true),
      ("file", true), ("request-id", true), ("review-revision", true)]),
    ("login", [("console", true), ("label", true), ("registry", true), ("api", true),
      ("identity", true), ("web", false)]),
    ("health", [("strict", false)]), ("doctor", [("strict", false)]), ("events", listOptionRules),
    ("device revoke", [("reason", true)]),
    ("admin create", [("username", true), ("display-name", true), ("email", true), ("roles", true),
      ("reason", true)]),
    ("admin enable", [("reason", true)]), ("admin disable", [("reason", true)]),
    ("admin onboard", [("reason", true)]), ("registry", [("kind", true)]),
    ("catalog list", listOptionRules), ("catalog apis", listOptionRules),
    ("role grant", [("reason", true)]), ("role revoke", [("reason", true)]),
    ("extensions install", [("reason", true)]), ("extensions operation watch", [("timeout", true)]),
    ("extensions registry login", [("username", true), ("token-stdin", false), ("reason", true)]),
    ("extensions registry logout", [("reason", true)]),
    ("extensions revoke-image", [("replacement", true), ("reason", true)]),
    ("plan", [("consumer", true), ("action", true), ("target", true), ("file", true),
      ("reason", true), ("offline", false)]),
    ("plan delete", [("yes", false)]), ("apply", [("wait", false), ("timeout", true)]),
    ("operation list", listOptionRules), ("operation watch", [("timeout", true)]),
    ("operation approve", [("reason", true)]),
    ("rollback", [("consumer", true), ("target", true), ("file", true), ("reason", true),
      ("offline", false)]),
    ("context delete", [("yes", false)]), ("support-bundle", [("file", true), ("force", false)]),
    ("update", [("check", false), ("status", false), ("force", false)]),
    ("platform update check", [("lock", true), ("channel", true)]),
    ("platform update plan", [("lock", true), ("channel", true)]),
    ("platform update apply", [("reason", true)]), ("backbone detail", [("component", true)])] ++
  (["shell", "shell commands", "whoami", "logout", "status", "describe", "device", "device list",
    "admin", "admin list", "catalog", "get", "role", "role list", "observability",
    "observability status", "observability targets", "audit", "audit list", "extensions",
    "extensions inspect", "extensions operation", "extensions operation get", "extensions activate",
    "extensions disable", "extensions uninstall", "extensions rollback", "extensions list",
    "extensions bindings", "extensions bindings list", "extensions bindings enable",
    "extensions bindings disable", "extensions registry", "extensions registry status",
    "extensions revocations", "plan list", "plan show", "operation", "operation get", "context",
    "context current", "context list", "context save", "context use", "platform", "platform update",
    "completion", "version", "backbone", "backbone status"].map fun key => (key, []))

/-- `nativeArityRules`, the keys of one arity together. -/
def nativeArityRules : List (String × ℕ × ℕ) :=
  (["shell commands", "login", "whoami", "logout", "status", "health", "doctor", "events",
    "registry", "plan", "plan list", "support-bundle", "update", "version", "platform update check",
    "platform update plan", "device list", "admin list", "admin create", "catalog list",
    "catalog apis", "role list", "observability status", "observability targets", "audit list",
    "backbone status", "backbone detail", "operation list", "context current", "context list",
    "extensions list", "extensions bindings list", "extensions registry status",
    "extensions registry login", "extensions registry logout",
    "extensions revocations"].map fun key => (key, 0, 0)) ++
  (["device", "admin", "catalog", "observability", "audit", "backbone", "operation", "context",
    "extensions bindings", "extensions registry"].map fun key => (key, 0, 1)) ++
  (["shell", "shell execute", "describe", "plan show", "plan delete", "apply", "rollback",
    "completion", "platform update", "platform update apply", "device revoke", "admin enable",
    "admin disable", "admin onboard", "role", "operation get", "operation watch",
    "operation approve", "context save", "context use", "context delete", "extensions",
    "extensions inspect", "extensions install", "extensions activate", "extensions operation",
    "extensions operation get", "extensions operation watch", "extensions disable",
    "extensions uninstall", "extensions rollback", "extensions bindings enable",
    "extensions bindings disable", "extensions revoke-image"].map fun key => (key, 1, 1)) ++
  [("get", 1, 2), ("platform", 2, 2), ("role grant", 2, 2), ("role revoke", 2, 2)]

def nativeContract (check : (name value : String) → Option String) : NativeContract where
  commands := ["shell", "login", "whoami", "logout", "status", "health", "doctor", "describe",
    "events", "device", "admin", "registry", "catalog", "get", "role", "observability", "audit",
    "extensions", "plan", "apply", "operation", "rollback", "context", "support-bundle", "update",
    "platform", "completion", "version", "backbone"]
  rules := nativeOptionRules
  arity := nativeArityRules
  check := check

end Cli
