import OpenSphere.Codec.Base64
import OpenSphere.Codec.Utf8
import OpenSphere.Js.Stored

/-!
# Envelopes of session credentials

`createSessionCredentialCipher` writes a credential as an envelope of its version, the
initialisation vector, the tag and the ciphertext.  The functions that store a session check the
form and the length of both envelopes.
-/

open Sql (Pattern chars digit lower upper orOneOf)
open Js (Utf16 leading trailing)

namespace Broker

/-! ## Texts as octets -/

/-- The characters that are encoded for a text.  Half a pair that stands alone is replaced. -/
def replaced : Utf16 → List Char
  | [] => []
  | [u] => [if leading u ∨ trailing u then Codec.Utf8.replacement else Char.ofNat u.val]
  | u :: v :: us =>
      if leading u ∧ trailing v then Js.pairChar u v :: replaced us
      else (if leading u ∨ trailing u then Codec.Utf8.replacement else Char.ofNat u.val) ::
        replaced (v :: us)

/-- `Buffer.from(t, 'utf8')`. -/
def octetsOf (t : Utf16) : List UInt8 := Codec.Utf8.encode (replaced t)

/-- `Buffer.from(bs).toString('base64url')`. -/
def base64url (bs : List UInt8) : List Char :=
  (Codec.Base64.encodeRaw bs).map fun c => if c = '+' then '-' else if c = '/' then '_' else c

/-! ## The cipher -/

/-- `aes-256-gcm` with the key of the service.  A ciphertext is as long as its plaintext, a tag
has 16 octets, and what is sealed is what is opened. -/
structure Gcm where
  encipher : (iv plaintext : List UInt8) → List UInt8 × List UInt8
  decipher : (iv tag ciphertext : List UInt8) → Option (List UInt8)
  length_ciphertext : ∀ iv p, (encipher iv p).1.length = p.length
  length_tag : ∀ iv p, (encipher iv p).2.length = 16
  decipher_encipher : ∀ iv p, decipher iv (encipher iv p).2 (encipher iv p).1 = some p

inductive CipherFault where
  | lengthInvalid
  | ivInvalid
  | envelopeInvalid
  | integrity
deriving DecidableEq

/-- `encrypt(value)`, with the octets that the random source returns. -/
def Gcm.encrypt (G : Gcm) (iv : List UInt8) (value : Utf16) : Except CipherFault (List Char) :=
  if value = [] ∨ 12 * 1024 < (octetsOf value).length then .error .lengthInvalid
  else if iv.length ≠ 12 then .error .ivInvalid
  else
    let (ciphertext, tag) := G.encipher iv (octetsOf value)
    .ok (chars "v1." ++ base64url iv ++ '.' :: base64url tag ++ '.' :: base64url ciphertext)

def Gcm.decrypt (G : Gcm) (envelope : List Char) : Except CipherFault Utf16 :=
  match envelope.splitOn '.' with
  | [version, ivValue, tagValue, ciphertextValue] =>
      if version ≠ chars "v1" ∨ ivValue = [] ∨ tagValue = [] ∨ ciphertextValue = [] then
        .error .envelopeInvalid
      else
        let iv := Codec.Base64.decode ivValue
        let tag := Codec.Base64.decode tagValue
        let ciphertext := Codec.Base64.decode ciphertextValue
        if iv.length ≠ 12 ∨ tag.length ≠ 16 ∨ ciphertext = [] then .error .integrity
        else
          match G.decipher iv tag ciphertext with
          | some plaintext => .ok (Js.utf16 (Codec.Utf8.decode plaintext))
          | none => .error .integrity
  | _ => .error .envelopeInvalid

/-! ## The database -/

/-- `[A-Za-z0-9_-]`. -/
def urlChar : Char → Bool := orOneOf (fun c => upper c || lower c || digit c) ['_', '-']

/-- `^v1[.][A-Za-z0-9_-]+[.][A-Za-z0-9_-]+[.][A-Za-z0-9_-]+$`. -/
def envelopeFormat : String → Bool :=
  Pattern.full (.seq [.text "v1", .text ".", .many1 urlChar, .text ".", .many1 urlChar, .text ".",
    .many1 urlChar])

/-- What issuing a session, activating and enrolling a second factor, the step up and the rotation
check of an envelope alike. -/
def storable (envelope : List Char) : Bool :=
  envelopeFormat (String.ofList envelope) && decide (32 ≤ envelope.length) &&
    decide (envelope.length ≤ 16384)

end Broker
