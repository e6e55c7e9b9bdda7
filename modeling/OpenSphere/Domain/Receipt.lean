import OpenSphere.Codec.Utf8
import OpenSphere.Js.Tree

/-!
# Digests of payloads

`packages/operation-receipt/src/operation-receipt.mjs`: the canonical text of a payload, with
the keys of every object in order, and its digest.
-/

open Js (Tree Utf16)
open Js.Tree (byKey commas memberText)

namespace Domain

mutual

def canonical : Tree → List Char
  | .array xs => '[' :: (commas (canonicalAll xs) ++ [']'])
  | .object ms =>
      '\x7b' :: (commas ((byKey (canonicalMembers ms)).map fun m => memberText m.1 m.2) ++ ['\x7d'])
  | x => x.stringify

/-- `value.map(canonical)`. -/
def canonicalAll : List Tree → List (List Char)
  | [] => []
  | x :: xs => canonical x :: canonicalAll xs

/-- `canonical(value[key])`, with the keys. -/
def canonicalMembers : List (Utf16 × Tree) → List (Utf16 × List Char)
  | [] => []
  | (k, x) :: ms => (k, canonical x) :: canonicalMembers ms

end

/-- `digest.toString('hex')`. -/
def hex (bs : List UInt8) : List Char :=
  bs.flatMap fun b => [Nat.digitChar (b.toNat / 16), Nat.digitChar (b.toNat % 16)]

def payloadOctets (payload : Tree) : List UInt8 := Codec.Utf8.encode (canonical payload)

def payloadDigest (sha256 : List UInt8 → List UInt8) (payload : Tree) : List Char :=
  Sql.chars "sha256:" ++ hex (sha256 (payloadOctets payload))

end Domain
