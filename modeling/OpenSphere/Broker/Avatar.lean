import OpenSphere.Codec.Base64
import OpenSphere.Domain.Receipt
import OpenSphere.Js.Json
import OpenSphere.System.Pool

/-!
# Avatars

An uploaded avatar is in two places.  The store has one object for a subject, and the provider says
in the metadata of the user what is shown: the uploaded object with its digest and type, a picture
of a linked account, or initials.

A call awaits one answer after the other, and calls of one subject may run at the same time.  A
request fails, or takes effect and loses its answer, or takes effect and is answered.
-/

open Sql (chars hexLower)
open Js (Value)
open System (Program Pool Move Setting)

namespace Avatar

structure Candidate where
  provider : String
  url : String
deriving DecidableEq

/-- What `console_avatar` says, and what is shown. -/
inductive Metadata where
  | initial
  | linked (c : Candidate)
  | upload (digest contentType : String)
deriving DecidableEq

/-- `AVATAR_CONTENT_TYPES`. -/
def contentTypes : List String := ["image/webp", "image/png", "image/jpeg"]

/-- `AVATAR_MAX_BYTES`. -/
def maxBytes : ℕ := 160 * 1024

/-- What is used of other code: `createHash('sha256')`, and `httpsAvatarUrl` on a text. -/
structure Library where
  sha256 : List UInt8 → List UInt8
  length_sha256 : ∀ bytes, (sha256 bytes).length = 32
  httpsAvatarUrl : String → String

variable (L : Library)

def digestOf (bytes : List UInt8) : String :=
  String.ofList (chars "sha256:" ++ Domain.hex (L.sha256 bytes))

/-- `/^sha256:[a-f0-9]{64}$/`. -/
def digestFormat (t : String) : Bool :=
  (chars t).take 7 == chars "sha256:" && (chars t).length == 71 && ((chars t).drop 7).all hexLower

/-- What is shown, and the pictures of the linked accounts. -/
structure Projection where
  current : Metadata
  linkedAccounts : List Candidate

/-- `avatarProjection(user)`, with the candidates of the linked accounts. -/
def avatarProjection (linked : List Candidate) : Option Metadata → Projection
  | some (.upload d t) =>
      ⟨if digestFormat d && contentTypes.contains t then .upload d t else .initial, linked⟩
  | some (.linked c) =>
      let exact := linked.find? fun candidate => candidate.provider = c.provider ∧
        candidate.url = L.httpsAvatarUrl c.url
      ⟨exact.elim .initial .linked, linked⟩
  | some .initial => ⟨.initial, linked⟩
  | none => ⟨linked.head?.elim .initial .linked, linked⟩

inductive Fault where
  | validationFailed (message : String)
  | typeError
  | avatarNotFound
  | authorityUnavailable
  | rejected
deriving DecidableEq

/-- `String(x || '')`. -/
def textOf (x : Value) : Except Fault String :=
  let x := if x.truthy then x else .string ""
  match x.toText with
  | some t => .ok t
  | none => .error .typeError

def plainObject : Value → Option Js.Members
  | .object ms => some ms
  | _ => none

/-- `x === t`. -/
def isText (t : String) : Value → Bool
  | .string u => u == t
  | _ => false

def validateAvatarSelection (body : Value) (linked : List Candidate) : Except Fault Metadata :=
  match plainObject body with
  | none => .error (.validationFailed "avatar selection is invalid")
  | some ms =>
      if isText "initial" (ms.get "source") ∧ ms.keys.length = 1 then .ok .initial
      else if !isText "linked" (ms.get "source") ∨ ms.keys.length ≠ 3 ∨ "provider" ∉ ms.keys ∨
          "url" ∉ ms.keys then
        .error (.validationFailed "avatar selection requires initial or an exact linked account")
      else do
        let provider ← textOf (ms.get "provider")
        let url := L.httpsAvatarUrl (← textOf (ms.get "url"))
        match linked.find? fun candidate => candidate.provider = provider ∧ candidate.url = url with
        | none => .error (.validationFailed "avatar selection is not a currently linked account")
        | some exact => .ok (.linked exact)

/-- `/^[A-Za-z0-9+/]+={0,2}$/`. -/
def base64Format (cs : List Char) : Bool :=
  let letters := cs.takeWhile fun c => (Codec.Base64.value c).isSome
  letters ≠ [] && [[], ['='], ['=', '=']].contains (cs.drop letters.length)

def uploadBytes (value : Value) : Except Fault (Option (List UInt8)) := do
  let raw := chars (← textOf value)
  if raw = [] ∨ (maxBytes + 2) / 3 * 4 + 4 < raw.length ∨ !base64Format raw then return none
  let bytes := Codec.Base64.decode (Codec.Base64.stripPadding raw)
  if bytes = [] ∨ maxBytes < bytes.length ∨ Codec.Base64.encode bytes ≠ raw then return none
  return some bytes

def hasMagic (bytes : List UInt8) (contentType : String) : Bool :=
  if contentType = "image/png" then bytes.take 8 == [137, 80, 78, 71, 13, 10, 26, 10]
  else if contentType = "image/jpeg" then
    4 ≤ bytes.length && bytes.take 2 == [0xFF, 0xD8] && bytes.drop (bytes.length - 2) == [0xFF, 0xD9]
  else if contentType = "image/webp" then
    12 ≤ bytes.length && bytes.take 4 == [82, 73, 70, 70] &&
      (bytes.drop 8).take 4 == [87, 69, 66, 80]
  else false

structure Upload where
  bytes : List UInt8
  contentType : String
  digest : String

def validateAvatarUpload (body : Value) : Except Fault Upload :=
  match plainObject body with
  | none =>
      .error (.validationFailed "avatar upload requires exactly contentType and dataBase64")
  | some ms =>
      if ms.keys.length ≠ 2 ∨ "contentType" ∉ ms.keys ∨ "dataBase64" ∉ ms.keys then
        .error (.validationFailed "avatar upload requires exactly contentType and dataBase64")
      else do
        let contentType := String.ofList ((chars (← textOf (ms.get "contentType"))).map Char.toLower)
        if contentType ∉ contentTypes then throw (.validationFailed "avatar must be PNG, JPEG, or WebP")
        match ← uploadBytes (ms.get "dataBase64") with
        | none =>
            throw (.validationFailed "avatar must be canonical base64 and at most 163840 bytes")
        | some bytes =>
            if !hasMagic bytes contentType then
              throw (.validationFailed "avatar content does not match its declared image type")
            return ⟨bytes, contentType, digestOf L bytes⟩

/-! ## The store and the provider -/

/-- The object of the subject, and what the provider says of it. -/
structure World where
  object : Option (List UInt8 × String)
  metadata : Option Metadata
deriving DecidableEq

/-- What a call asks.  `access` is for the session and the record of the access. -/
inductive Request where
  | access
  | decrypt
  | readProfileAvatar
  | updateProfileAvatar (metadata : Metadata)
  | upsertAvatar (bytes : List UInt8) (contentType : String)
  | deleteAvatar
  | readAvatar

abbrev Answer : Request → Type
  | .readProfileAvatar => Projection
  | .updateProfileAvatar _ => Projection
  | .readAvatar => List UInt8 × String
  | _ => Unit

def effect (w : World) : Request → World
  | .updateProfileAvatar m => { w with metadata := some m }
  | .upsertAvatar bytes contentType => { w with object := some (bytes, contentType) }
  | .deleteAvatar => { w with object := none }
  | _ => w

def reply (linked : List Candidate) (w : World) : (q : Request) → Except Fault (Answer q)
  | .access => .ok ()
  | .decrypt => .ok ()
  | .readProfileAvatar => .ok (avatarProjection L linked w.metadata)
  | .updateProfileAvatar m =>
      let projection := avatarProjection L linked w.metadata
      if projection.current = m then .ok projection else .error .authorityUnavailable
  | .upsertAvatar _ _ => .ok ()
  | .deleteAvatar => .ok ()
  | .readAvatar =>
      match w.object with
      | some object => .ok object
      | none => .error .authorityUnavailable

inductive Fate where
  | fails
  | lost
  | answered (linked : List Candidate)

def answer : Fate → (q : Request) → World → Except Fault (Answer q) × World
  | .fails, _, w => (.error .rejected, w)
  | .lost, q, w => (.error .rejected, effect w q)
  | .answered linked, q, w => (reply L linked (effect w q) q, effect w q)

/-! ## Calls -/

inductive Result where
  | projection (p : Projection)
  | content (bytes : List UInt8) (contentType digest : String)

abbrev Service := Program Fault Request Answer Result

/-- A call that awaits an answer and ignores an error. -/
def deleteQuietly (next : Service) : Service :=
  .ask .deleteAvatar fun _ => next

def selectProfileAvatar (body : Value) : Service := do
  let _ ← Program.await .access
  let _ ← Program.await .decrypt
  let current : Projection ← Program.await Request.readProfileAvatar
  let metadata ← Program.lift (validateAvatarSelection L body current.linkedAccounts)
  let updated : Projection ← Program.await (Request.updateProfileAvatar metadata)
  match current.current with
  | .upload _ _ => deleteQuietly (pure (.projection updated))
  | _ => pure (.projection updated)

def uploadProfileAvatar (body : Value) : Service := do
  let upload ← Program.lift (validateAvatarUpload L body)
  let _ ← Program.await .access
  let _ ← Program.await (.upsertAvatar upload.bytes upload.contentType)
  Program.tryCatch
    (do
      let _ ← Program.await .decrypt
      let updated : Projection ← Program.await
        (Request.updateProfileAvatar (.upload upload.digest upload.contentType))
      match updated.current with
      | .upload digest _ =>
          if digest ≠ upload.digest then .throw .authorityUnavailable
          else pure (.projection updated)
      | _ => .throw .authorityUnavailable)
    fun e => deleteQuietly (.throw e)

def readProfileAvatarContent (expectedDigest : String) : Service :=
  if !digestFormat expectedDigest then
    .throw (.validationFailed "profile avatar version is invalid")
  else do
    let _ ← Program.await .access
    let _ ← Program.await .decrypt
    let current : Projection ← Program.await Request.readProfileAvatar
    match current.current with
    | .upload digest contentType =>
        if digest ≠ expectedDigest then .throw .avatarNotFound
        else do
          let (bytes, type) ← Program.await Request.readAvatar
          if digestOf L bytes ≠ expectedDigest ∨ type ≠ contentType then
            .throw .authorityUnavailable
          else pure (.content bytes type (digestOf L bytes))
    | _ => .throw .avatarNotFound

inductive Call where
  | select (body : Value)
  | upload (body : Value)
  | content (digest : String)

/-- The calls of the subject, which run at the same time. -/
def setting : Setting Fault Request Answer Result Call World Fate Empty where
  program
    | .select body => selectProfileAvatar L body
    | .upload body => uploadProfileAvatar L body
    | .content digest => readProfileAvatarContent L digest
  answer := answer L
  change := nofun

end Avatar
