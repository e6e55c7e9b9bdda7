import OpenSphere.Catalog.Names
import OpenSphere.Codec.Base64
import OpenSphere.Codec.Utf8
import OpenSphere.Js.Json

/-!
# Objects of the cluster

The Registry reads the objects of the cluster as trees.  A field that is missing, or is of another
kind than the one that is asked for, reads as the empty value of that kind.

A map has no order.  Its members stand in one here that no function of the Registry shows: what it
takes from a map it sorts.
-/

open Sql
open Js (Value Values Members)

namespace Catalog

/-- An object of the cluster: what its getters give, and its other content. -/
structure Resource where
  name : String
  labels : List (String × String)
  annotations : List (String × String)
  generation : Int
  resourceVersion : String
  /-- As `UTC().Format(time.RFC3339)` writes it. -/
  creationTimestamp : String
  content : Value

/-- `GetLabels()[k]`. -/
def Resource.label (r : Resource) (k : String) : String := (r.labels.lookup k).getD ""

/-- `GetAnnotations()[k]`. -/
def Resource.annotation (r : Resource) (k : String) : String := (r.annotations.lookup k).getD ""

/-- `NestedFieldNoCopy`. -/
def nested : Value → List String → Value
  | x, [] => x
  | .object ms, k :: path => nested (ms.get k) path
  | _, _ :: _ => .undefined

def nestedString (o : Value) (fields : List String) : String :=
  match nested o fields with
  | .string s => s
  | _ => ""

def nestedMap (o : Value) (fields : List String) : Members :=
  match nested o fields with
  | .object ms => ms
  | _ => .nil

def nestedSlice (o : Value) (fields : List String) : List Value :=
  match nested o fields with
  | .array xs => xs.toList
  | _ => []

/-- `NestedBool(o, fields...)`, if the field is there. -/
def nestedBool (o : Value) (fields : List String) : Option Bool :=
  match nested o fields with
  | .boolean b => some b
  | _ => none

/-- A character of JSON that `json.Marshal` escapes for HTML. -/
def escapeHtml (c : Char) : List Char :=
  if c = '<' then chars "\\u003c"
  else if c = '>' then chars "\\u003e"
  else if c = '&' then chars "\\u0026"
  else if c.toNat = 0x2028 then chars "\\u2028"
  else if c.toNat = 0x2029 then chars "\\u2029"
  else [c]

/-- `json.Marshal(x)`, where the members of each object stand in the order they are written. -/
def marshal (x : Value) : String := String.ofList (x.stringify.flatMap escapeHtml)

/-! ## Text -/

/-- `unicode.IsSpace(c)`. -/
def space (c : Char) : Bool :=
  decide (0x09 ≤ c.toNat ∧ c.toNat ≤ 0x0D) || decide (0x2000 ≤ c.toNat ∧ c.toNat ≤ 0x200A) ||
    [0x20, 0x85, 0xA0, 0x1680, 0x2028, 0x2029, 0x202F, 0x205F, 0x3000].contains c.toNat

def trimSpace (t : String) : String := String.ofList (Js.strip space (chars t))

/-- `strings.LastIndexByte(t, c)`. -/
def lastIndex (c : Char) (cs : List Char) : Int :=
  match cs.reverse.idxOf? c with
  | some i => cs.length - 1 - i
  | none => -1

/-- The parts of a text between slashes. -/
def segments (cs : List Char) : List (List Char) := cs.splitOn '/'

/-- One segment of `path.Clean`, onto the segments before it from the last to the first. -/
def cleanStep (rooted : Bool) (out : List (List Char)) (segment : List Char) : List (List Char) :=
  if segment = [] ∨ segment = ['.'] then out
  else if segment = ['.', '.'] then
    match out with
    | [] => if rooted then [] else [segment]
    | last :: rest => if last = ['.', '.'] then segment :: out else rest
  else segment :: out

/-- `path.Clean(p)`. -/
def cleanPath (cs : List Char) : List Char :=
  let rooted := cs.head? == some '/'
  let out := ((segments cs).foldl (cleanStep rooted) []).reverse
  let body := (out.intersperse ['/']).flatten
  if rooted then '/' :: body else if body.isEmpty then ['.'] else body

/-- `path.Dir(p)`. -/
def pathDir (t : String) : String :=
  String.ofList (cleanPath ((chars t).take (lastIndex '/' (chars t) + 1).toNat))

/-- `path.Base(p)`. -/
def pathBase (t : String) : String :=
  if t = "" then "."
  else
    let front := (chars t).rdropWhile (· == '/')
    let base := front.drop (lastIndex '/' front + 1).toNat
    if base.isEmpty then "/" else String.ofList base

/-- `strings.TrimSuffix(t, "/")`. -/
def trimSlash (t : String) : String :=
  if (chars t).getLast? = some '/' then String.ofList (chars t).dropLast else t

/-- `strconv.ParseInt(t, 10, 64)`, whose error is dropped: a number that is too large is the
largest, and what is no number is 0. -/
def parseInt (t : String) : Int :=
  let digits (cs : List Char) : Option Int :=
    if !cs.isEmpty && cs.all digit then
      some (cs.foldl (fun n c => n * 10 + (c.toNat - '0'.toNat : Int)) 0)
    else none
  match chars t with
  | '-' :: cs => ((digits cs).map fun n => max (-n) (-2 ^ 63)).getD 0
  | '+' :: cs => ((digits cs).map fun n => min n (2 ^ 63 - 1)).getD 0
  | cs => ((digits cs).map fun n => min n (2 ^ 63 - 1)).getD 0

/-! ## Formats -/

/-- `sourceRevisionRE`. -/
def sourceRevisionFormat : String → Bool := Pattern.full (.times hexLower 40)

/-- `compatibilityVersionRE`. -/
def compatibilityVersionFormat : String → Bool :=
  Pattern.full (.seq [.repeated digit 1 none, .text ".", .repeated digit 1 none, .text ".",
    .repeated digit 1 none])

/-- `repositoryRE`. -/
def repositoryFormat : String → Bool :=
  Pattern.full (.seq [.text "ghcr.io/opensphere-platform/", .times alphanumeric 1,
    .repeated (orOneOf alphanumeric ['.', '_', '-']) 0 none])

def withoutTag (value : List Char) : List Char :=
  if value.contains '@' then value.takeWhile (· != '@')
  else if lastIndex '/' value < lastIndex ':' value then value.take (lastIndex ':' value).toNat
  else value

def requestedRepository (ref : String) : String :=
  let value := String.ofList (withoutTag (chars (trimSpace ref)))
  if repositoryFormat value then value else ""

def canonicalExtensionRepository (kind id : String) : String :=
  if !extensionId id then ""
  else if kind = "plugin" then "ghcr.io/opensphere-platform/opensphere-plugin-" ++ id
  else if kind = "subShell" then
    if (chars "shell-").isPrefixOf (chars id) then "ghcr.io/opensphere-platform/opensphere-" ++ id
    else "ghcr.io/opensphere-platform/opensphere-shell-" ++ id
  else ""

def imageDigest (image : String) : String :=
  match (chars image).splitOn '@' with
  | [_, d] => if digestFormat (String.ofList d) then String.ofList d else ""
  | _ => ""

end Catalog
