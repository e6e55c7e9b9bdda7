import OpenSphere.Catalog.Objects

/-!
# Releases of the official module

The package of the official module carries its release, signed.  The Registry reads the envelope
and the release in it with `json.Unmarshal` into structures, which takes a field of any case for
one of its own, the last one of several.
-/

open Sql
open Js (Value Values Members)
open ConsoleIdentity (Bytes)

namespace Catalog

structure Library extends Hash where
  /-- A public key for the curve P-256. -/
  Key : Type
  /-- The members of a JSON object as its text has them.  In an object inside of it only the last
  member of a name is left, and a number has the text of the double it denotes. -/
  members : Bytes → Option (List (String × Value))
  /-- `time.Parse(time.RFC3339, t)`, in nanoseconds. -/
  parseTime : String → Option Int
  /-- `x509.ParsePKIXPublicKey(der)`, if it is a key for P-256. -/
  publicKey : Bytes → Option Key
  /-- `ecdsa.Verify` of the SHA-256 of some octets and the two halves of a signature. -/
  verify : Key → Bytes → Bytes → Bool

def octetsOf (t : String) : Bytes := Codec.Utf8.encode (chars t)

/-- `base64.StdEncoding.DecodeString(t)`: line breaks are skipped, and the last group is padded. -/
def decodeStd (t : String) : Option Bytes :=
  let cs := (chars t).filter fun c => c != '\r' && c != '\n'
  let body := cs.rdropWhile (· == '=')
  if cs.length % 4 = 0 ∧ cs.length - body.length ≤ 2 then Codec.Base64.decodeRaw body else none

/-- The letter that stands for a letter in all its cases, for the letters of the alphabet. -/
def foldRune (c : Char) : Char :=
  if c.toNat = 0x17F then 'S' else if c.toNat = 0x212A then 'K' else c.toUpper

def fieldNamed (field key : String) : Bool := (chars key).map foldRune == (chars field).map foldRune

/-- One value that `json.Unmarshal` reads into a text, after `t`. -/
def unmarshalString (t : String) : Value → Option String
  | .string s => some s
  | .null => some t
  | _ => none

def unmarshalField {α : Type} (f : α → Value → Option α) (field : String) (zero : α)
    (ms : List (String × Value)) : Option α :=
  (ms.filter fun m => fieldNamed field m.1).foldlM (fun x m => f x m.2) zero

def unmarshalTime (L : Library) (t : Option Int) : Value → Option (Option Int)
  | .string s => (L.parseTime s).map some
  | .null => some t
  | _ => none

def setMember (k : String) (x : Value) : Members → Members
  | .nil => .cons k x .nil
  | .cons k' y ms => if k' = k then .cons k x ms else .cons k' y (setMember k x ms)

def setMembers (ms : Members) : Members → Members
  | .nil => ms
  | .cons k x rest => setMembers (setMember k x ms) rest

def unmarshalMap (ms : Option Members) : Value → Option (Option Members)
  | .object new => some (some (setMembers (ms.getD .nil) new))
  | .null => some none
  | _ => none

structure Envelope where
  schema : String
  keyId : String
  payload : String
  signature : String

structure ModuleRelease where
  schema : String
  id : String
  channel : String
  issuedAt : Option Int
  expiresAt : Option Int
  spec : Option Members

/-- `json.Unmarshal([]byte(raw), &envelope)`. -/
def Envelope.unmarshal (L : Library) (raw : Bytes) : Option Envelope := do
  let ms ← L.members raw
  let schema ← unmarshalField unmarshalString "Schema" "" ms
  let keyId ← unmarshalField unmarshalString "KeyID" "" ms
  let payload ← unmarshalField unmarshalString "Payload" "" ms
  let signature ← unmarshalField unmarshalString "Signature" "" ms
  return { schema, keyId, payload, signature }

/-- `json.Unmarshal(bytes, &release)`. -/
def ModuleRelease.unmarshal (L : Library) (bytes : Bytes) : Option ModuleRelease := do
  let ms ← L.members bytes
  let schema ← unmarshalField unmarshalString "Schema" "" ms
  let id ← unmarshalField unmarshalString "ID" "" ms
  let channel ← unmarshalField unmarshalString "Channel" "" ms
  let issuedAt ← unmarshalField (unmarshalTime L) "IssuedAt" none ms
  let expiresAt ← unmarshalField (unmarshalTime L) "ExpiresAt" none ms
  let spec ← unmarshalField unmarshalMap "Spec" none ms
  return { schema, id, channel, issuedAt, expiresAt, spec }

def minute : Int := 60 * 1000000000

/-- `90*24*time.Hour`, in nanoseconds. -/
def ninetyDays : Int := 90 * 24 * 60 * minute

def zeroTime : Int := -62135596800 * 1000000000

/-- `json.Marshal(m)` of a map. -/
def marshalMap (m : Option Members) : String := marshal (m.elim .null fun ms => (Value.object ms).canonical)

/-- `verifyOfficialModule(pkg, keys, now)`, where nothing is an error. -/
def verifyOfficialModule (L : Library) (pkg : Resource) (keys : List (String × String)) (now : Int) :
    Option Unit := do
  guard (pkg.name = "cluster-manager" ∧
    pkg.label "app.kubernetes.io/managed-by" = "opensphere-module-discovery" ∧
    pkg.annotation "opensphere.io/discovery-state" = "Verified")
  let raw := octetsOf (pkg.annotation "opensphere.io/module-release")
  guard (raw.length ≠ 0 ∧ raw.length ≤ 96 * 1024)
  let envelope ← Envelope.unmarshal L raw
  guard (envelope.schema = "opensphere.module-release-envelope/v1")
  let bytes ← decodeStd envelope.payload
  let signature ← decodeStd envelope.signature
  guard (signature.length = 64)
  let der ← decodeStd ((keys.lookup envelope.keyId).getD "")
  let key ← L.publicKey der
  guard (L.verify key bytes signature = true)
  let release ← ModuleRelease.unmarshal L bytes
  let issued := release.issuedAt.getD zeroTime
  let expires := release.expiresAt.getD zeroTime
  guard (release.schema = "opensphere.module-release/v1" ∧ release.id = "cluster-manager" ∧
    release.channel = "edge" ∧ issued ≤ now + minute ∧ now < expires ∧ issued < expires ∧
    expires - issued ≤ ninetyDays)
  let profile := nestedString pkg.content ["spec", "permissionProfile"]
  guard (marshalMap release.spec = marshalMap (some (nestedMap pkg.content ["spec"])) ∧
    nestedString pkg.content ["spec", "trust", "keyId"] = envelope.keyId ∧
    (profile = "cluster-read" ∨ profile = "cluster-infrastructure-manager-v1") ∧
    nestedString pkg.content ["spec", "hostRef"] = "main")

end Catalog
