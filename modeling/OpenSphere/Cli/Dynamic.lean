import OpenSphere.Js.Text

/-!
# Commands of extensions

The command line tool takes the commands of a namespace from the manifest of its owner.
`dynamic` runs the first tool whose words begin the words of the call, and
`printDynamicCommandHelp` describes the one that has the most words of those.
-/

open Sql (chars startsWith)

namespace Cli

/-! ## Words -/

/-- `unicode.IsSpace`. -/
def space (c : Char) : Bool :=
  (0x09 ≤ c.toNat && c.toNat ≤ 0x0D) || c == ' ' || c.toNat == 0x85 || c.toNat == 0xA0 ||
    c.toNat == 0x1680 || (0x2000 ≤ c.toNat && c.toNat ≤ 0x200A) || c.toNat == 0x2028 ||
    c.toNat == 0x2029 || c.toNat == 0x202F || c.toNat == 0x205F || c.toNat == 0x3000

def fields (s : String) : List String :=
  (((chars s).splitOnP space).filter fun w => w ≠ []).map String.ofList

/-- `strings.Join(words, " ")`. -/
def join (words : List String) : String := String.ofList ([' '].intercalate (words.map chars))

def trimSpace (s : String) : String := String.ofList (Js.strip space (chars s))

/-- `strings.ToLower` of a character, up to letters that no ASCII letter is the lower case of. -/
def lowerCase (c : Char) : Char :=
  if c.toNat = 0x130 then 'i' else if c.toNat = 0x212A then 'k' else c.toLower

/-- `strings.ToLower(s)`, for comparisons with ASCII texts. -/
def toLower (s : String) : String := String.ofList ((chars s).map lowerCase)

def toolCommandPrefix (command ns : String) : List String :=
  let words := fields command
  let words := if words.take 2 = ["os", ns] then words.drop 2 else words
  words.takeWhile fun w => !(startsWith w "--" || startsWith w "<" || startsWith w "(")

def nonFlagArgs (args : List String) : List String := args.takeWhile fun a => !startsWith a "--"

def hasHelpFlag (args : List String) : Bool := args.any fun a => a == "--help" || a == "-h"

/-! ## Manifests -/

structure ToolRoute where
  path : String
  previewPath : String
  applyPath : String

/-- A tool of a manifest.  `availability` and `webShell` are what they say of the Web Shell. -/
structure Tool where
  id : String
  command : String
  method : String
  path : String
  components : List (String × ToolRoute)
  operations : List (String × ToolRoute)
  description : String
  executionClass : String
  availability : Option Bool
  webShell : Option Bool
  actionBinding : Option Js.Members

structure ToolManifest where
  kind : String
  tools : List Tool

def isDynamicOperationWatch (tool : Tool) : Bool :=
  (chars ".operation.watch").isSuffixOf (chars (toLower (trimSpace tool.id))) ||
    (toolCommandPrefix tool.command "").getLast?.any fun w => toLower w == "watch"

/-- `declaredWebShellAvailability(tool)`, unless the two places differ. -/
def declaredWebShellAvailability (tool : Tool) : Except String (Option Bool) :=
  match tool.availability, tool.webShell with
  | some a, some b => if a = b then .ok (some b)
      else .error ("conflicting Web Shell availability: " ++ tool.command)
  | a, b => .ok (b.or a)

def bindingInvalid (binding : Js.Members) (key : String) : Bool :=
  key ∈ binding.keys && match binding.get key with
    | .string text => trimSpace text == ""
    | _ => true

def toolFault (tool : Tool) : Except String Unit := do
  if tool.executionClass ≠ "" ∧
      tool.executionClass ∉ ["console-api", "local-host", "external-tool"] then
    throw ("unknown executionClass: " ++ tool.executionClass)
  if (← declaredWebShellAvailability tool) = some true ∧ tool.executionClass ≠ "console-api" then
    throw ("Web Shell availability requires executionClass console-api: " ++ tool.command)
  if let some binding := tool.actionBinding then
    if binding.keys = [] then throw ("actionBinding must not be empty: " ++ tool.command)
    if let some key := ["id", "action", "capability", "operation"].find? (bindingInvalid binding) then
      throw ("actionBinding." ++ key ++ " must be a non-empty string: " ++ tool.command)
  if isDynamicOperationWatch tool ∧ toLower (trimSpace tool.method) ≠ "get" then
    throw ("operation watch tool must use GET: " ++ tool.command)

/-- The loop of `validateToolManifest`, with the ids that were seen. -/
def validateTools : List String → List Tool → Except String Unit
  | _, [] => .ok ()
  | seen, tool :: tools => do
      if trimSpace tool.command = "" ∨
          (trimSpace tool.path = "" ∧ tool.components = [] ∧ tool.operations = []) then
        throw "CLI contribution tool command/path is required"
      if tool.id ≠ "" ∧ tool.id ∈ seen then
        throw ("duplicate CLI contribution tool id: " ++ tool.id)
      toolFault tool
      validateTools (tool.id :: seen) tools

def validateToolManifest (m : ToolManifest) : Except String Unit :=
  if trimSpace m.kind = "" ∨ m.tools = [] then .error "CLI contribution manifest schema is invalid"
  else validateTools [] m.tools

/-! ## Selection -/

section

variable (ns : String) (words : List String)

def begins (tool : Tool) : Bool :=
  let p := toolCommandPrefix tool.command ns
  decide (p.length ≤ words.length) && join p == join (words.take p.length)

/-- The tool that `dynamic` selects. -/
def selectTool (tools : List Tool) : Option Tool :=
  tools.find? fun tool => toolCommandPrefix tool.command ns ≠ [] && begins ns words tool

/-- A turn of the loop of `printDynamicCommandHelp`. -/
def longer (selected : Option Tool) (tool : Tool) : Option Tool :=
  let length (t : Tool) := (toolCommandPrefix t.command ns).length
  if begins ns words tool ∧ ∀ t ∈ selected, length t < length tool then some tool else selected

/-- The tool that `printDynamicCommandHelp` selects. -/
def longestTool (tools : List Tool) : Option Tool := tools.foldl (longer ns words) none

end

inductive Help where
  | commands
  | tool (t : Tool)
  | unknown

def printDynamicCommandHelp (ns : String) (args : List String) (m : ToolManifest) : Help :=
  match nonFlagArgs args with
  | [] => .commands
  | words => (longestTool ns words m.tools).elim .unknown .tool

/-- What `dynamic` does with the arguments after the namespace. -/
inductive Action where
  | manifest
  | help (h : Help)
  | run (t : Tool)
  | unknown

/-- `dynamic`, up to the selection of the tool. -/
def dynamic (ns : String) (args : List String) (m : ToolManifest) : Action :=
  if args = [] ∨ args.head? = some "manifest" then .manifest
  else if hasHelpFlag args then .help (printDynamicCommandHelp ns args m)
  else (selectTool ns (nonFlagArgs args) m.tools).elim .unknown .run

end Cli
