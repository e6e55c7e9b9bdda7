import OpenSphere.Js.Regex
import OpenSphere.Js.Text

/-!
# The dependencies of a module

`moduleDependencySpecifiers` reads the source text of a module with three expressions that find
the names of other modules, and two that find a dynamic import and a call of `require`.
-/

open Sql (chars)
open Js (whitespace)
open Js.Regex

namespace Extension

/-- `[ \t]`. -/
def blank : Char → Bool := oneOf [' ', '\t']

/-- `['"]`. -/
def quote : Char → Bool := oneOf ['\x27', '"']

/-- `[^'"\r\n]`. -/
def nameChar : Char → Bool := noneOf ['\x27', '"', '\r', '\n']

/-- `[^;\r\n]`. -/
def lineChar : Char → Bool := noneOf [';', '\r', '\n']

/-- `(?:^|[;}\r\n])`. -/
def opening : Matcher := either start (one (oneOf [';', '\x7d', '\r', '\n']))

/-- `(['"])([^'"\r\n]+)\1`. -/
def quotedName : List Matcher := [group (one quote), group (some1 nameChar), back]

/-- `/(?:^|[;}\r\n])\s*import[ \t]*(['"])([^'"\r\n]+)\1/gu`. -/
def bareImport : Matcher :=
  sequence ([opening, many whitespace, text (chars "import"), many blank] ++ quotedName)

/-- `/(?:^|[;}\r\n])\s*(?:import|export)[ \t]+[^;\r\n]*?[ \t]+from[ \t]*(['"])([^'"\r\n]+)\1/gu`. -/
def fromClause : Matcher :=
  sequence ([opening, many whitespace, either (text (chars "import")) (text (chars "export")),
    some1 blank, lazy lineChar, some1 blank, text (chars "from"), many blank] ++ quotedName)

/-- `/\bimport[ \t]*\([ \t]*(['"])([^'"\r\n]+)\1[ \t]*\)/gu`. -/
def namedCall : Matcher :=
  sequence ([boundary, text (chars "import"), many blank, text ['('], many blank] ++ quotedName ++
    [many blank, text [')']])

/-- `/\bimport[ \t]*\(/u`. -/
def dynamicImport : Matcher :=
  sequence [boundary, text (chars "import"), many blank, text ['(']]

/-- `/(?:^|[^\w$.])require[ \t]*\(/u`. -/
def commonRequire : Matcher :=
  sequence [either start (one fun c => !(wordChar c || c == '$' || c == '.')),
    text (chars "require"), many blank, text ['(']]

/-- `match[2]` of every match. -/
def namesOf (m : Matcher) (source : List Char) : List (List Char) :=
  (findAll m (source.length + 1) none source).map fun t => t.groups.getD 1 []

/-- `specifiers.add(name)`. -/
def addName (names : List String) (name : String) : List String :=
  if name ∈ names then names else names ++ [name]

def moduleDependencySpecifiers (source : String) : List String :=
  let names := [bareImport, fromClause, namedCall].flatMap fun m => namesOf m (chars source)
  ((names.map String.ofList) ++
    (if test dynamicImport (chars source) then ["<dynamic-import>"] else []) ++
    (if test commonRequire (chars source) then ["<commonjs-require>"] else [])).foldl addName []

end Extension
