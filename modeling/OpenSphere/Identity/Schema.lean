import OpenSphere.Authority.System

/-!
# The identity schema

The tables of `console_identity` as they stand after the last migration, and
the site they belong to: the users of Supabase Auth, the identity tables, the
managed-role policy in force, and the tables of the operation functions.

`Authority` knows a session only by the columns the operation functions read.
`Session` is the whole row.  `Site.db` shows a site to the operation functions
and `Site.setDb` stores what they have done.
-/

open Sql
open Authority (Aal SubjectAuthority BrowserSession PermissionGrant ModuleInstallationEnvironment
  Digest Statement EventArgs between counter)

namespace ConsoleIdentity

/-- A `bytea`. -/
abbrev Bytes := List UInt8

def octetLength (x : Bytes) : Int := x.length

/-- `'...'::interval` in hours. -/
def hours (n : Int) : Int := seconds (3600 * n)

/-- `'...'::interval` in minutes. -/
def minutes (n : Int) : Int := seconds (60 * n)

/-- `'...'::interval` in days, in a session whose time zone is UTC. -/
def days (n : Int) : Int := seconds (86400 * n)

/-! ## Formats -/

/-- `[A-Za-z0-9_-]`. -/
def base64Url : Char → Bool := orOneOf (fun c => lower c || upper c || digit c) ['_', '-']

/-- `^v1[.][A-Za-z0-9_-]+[.][A-Za-z0-9_-]+[.][A-Za-z0-9_-]+$`. -/
def envelopeFormat : String → Bool :=
  Pattern.full (.seq [.text "v1.", .many1 base64Url, .text ".", .many1 base64Url, .text ".",
    .many1 base64Url])

/-- `[[:cntrl:]]`. -/
def control (c : Char) : Bool := decide (c.toNat < 32 ∨ (127 ≤ c.toNat ∧ c.toNat < 160))

/-- `s ~ '[[:cntrl:]]'`. -/
def hasControl (s : String) : Bool := (chars s).any control

/-- `s ~ '[\r\n]'`. -/
def hasNewline (s : String) : Bool := (chars s).any fun c => c == '\r' || c == '\n'

/-- `^[A-Za-z0-9_-]{43}$`. -/
def coordinateFormat : String → Bool := Pattern.full (.times base64Url 43)

/-- `^[a-f0-9]{2}(:[a-f0-9]{2}){31}$`. -/
def fingerprintFormat : String → Bool :=
  Pattern.full (.seq (.times hexLower 2 ::
    List.replicate 31 (.seq [.text ":", .times hexLower 2])))

/-! ## Browser sessions -/

/-- `browser_session.persistence`. -/
inductive Persistence where
  | browser
  | hours1
  | hours4
  | hours8
  | hours12
  | hours24
  | days3
  | days7
  | days14
  | days30
deriving DecidableEq, Repr

def Persistence.all : List Persistence :=
  [browser, hours1, hours4, hours8, hours12, hours24, days3, days7, days14, days30]

def Persistence.text : Persistence → String
  | browser => "browser"
  | hours1 => "1h"
  | hours4 => "4h"
  | hours8 => "8h"
  | hours12 => "12h"
  | hours24 => "24h"
  | days3 => "3d"
  | days7 => "7d"
  | days14 => "14d"
  | days30 => "30d"

def Persistence.ofText (s : String) : Option Persistence := all.find? fun x => x.text == s

/-- `v_duration`: how long a login lasts at most. -/
def Persistence.duration : Persistence → Int
  | browser => hours 24
  | hours1 => hours 1
  | hours4 => hours 4
  | hours8 => hours 8
  | hours12 => hours 12
  | hours24 => hours 24
  | days3 => days 3
  | days7 => days 7
  | days14 => days 14
  | days30 => days 30

/-- `console_identity.browser_session`. -/
structure Session extends BrowserSession where
  tokenDigest : Bytes
  csrfTokenDigest : Bytes
  createdAt : Timestamp
  absoluteExpiresAt : Timestamp
  persistence : Persistence
  revokeReason : Option String
  authSessionRef : Option String
  accessTokenCiphertext : Option String
  refreshTokenCiphertext : Option String
  accessTokenExpiresAt : Option Timestamp
deriving DecidableEq

def envelopeCheck (x : Option String) : Bool :=
  x.all fun c => between (textLength c) 32 16384 && envelopeFormat c

/-- The CHECK that ties a reason to a revocation.  A revocation whose reason is
NULL makes it NULL, and a CHECK rejects only false. -/
def revocationCheck (revokedAt : Option Timestamp) (reason : Option String) : Bool :=
  (Cond.and (isNull revokedAt) (isNull reason)).or
    (Cond.and (isNotNull revokedAt) (holds (fun r => decide (0 < textLength (btrim r))) reason))
    != some false

def sessionSchema : Schema Session Uuid where
  name := "console_identity.browser_session"
  key := (·.sessionId)
  check r :=
    counter r.permissionRevision && counter r.revokeEpoch && decide (r.createdAt < r.expiresAt) &&
    revocationCheck r.revokedAt r.revokeReason &&
    (r.authSessionRef.all fun t => between (textLength t) 1 256 && !hasControl t) &&
    envelopeCheck r.accessTokenCiphertext && envelopeCheck r.refreshTokenCiphertext &&
    (r.accessTokenCiphertext.isNone == r.refreshTokenCiphertext.isNone) &&
    (r.accessTokenCiphertext.isNone == r.accessTokenExpiresAt.isNone) &&
    decide (r.expiresAt ≤ r.absoluteExpiresAt) && decide (r.createdAt < r.absoluteExpiresAt)
  clash a b := decide (a.tokenDigest = b.tokenDigest ∨ a.csrfTokenDigest = b.csrfTokenDigest)

/-! ## CLI devices -/

/-- The CHECK on a public key: exactly the P-256 coordinates, as far as they are
not NULL. -/
def publicJwkCond (k : Jsonb) : Cond :=
  .all [
    some (decide (k.typeof = "object")),
    eq (k.getText "kty") (some "EC"),
    eq (k.getText "crv") (some "P-256"),
    holds coordinateFormat (k.getText "x"),
    holds coordinateFormat (k.getText "y"),
    some ((k.objectKeys.getD []).all fun f => f ∈ ["kty", "crv", "x", "y"])]

def labelCheck (s : String) : Bool := between (textLength (btrim s)) 1 128 && !hasNewline s

/-- `console_identity.cli_device`. -/
structure CliDevice where
  deviceId : Uuid
  subjectId : Uuid
  label : String
  publicJwk : Jsonb
  fingerprint : String
  /-- `status = 'active'`; the other status is `'revoked'`. -/
  active : Bool
  createdAt : Timestamp
  lastUsedAt : Option Timestamp
  revokedAt : Option Timestamp
  revokeReason : Option String
deriving DecidableEq

def cliDeviceSchema : Schema CliDevice Uuid where
  name := "console_identity.cli_device"
  key := (·.deviceId)
  check d :=
    labelCheck d.label && publicJwkCond d.publicJwk != some false &&
    fingerprintFormat d.fingerprint &&
    ((Cond.all [some d.active, isNull d.revokedAt, isNull d.revokeReason]).or
      (.all [some (!d.active), isNotNull d.revokedAt,
        holds (fun r => between (textLength (btrim r)) 8 500) d.revokeReason]) != some false)
  clash a b := decide (a.subjectId = b.subjectId ∧ a.fingerprint = b.fingerprint)

/-- `console_identity.cli_enrollment`. -/
structure CliEnrollment where
  enrollmentId : Uuid
  label : String
  publicJwk : Jsonb
  fingerprint : String
  userCodeDigest : Bytes
  pollTokenDigest : Bytes
  /-- `status = 'approved'`; the other status is `'pending'`. -/
  approved : Bool
  expiresAt : Timestamp
  subjectId : Option Uuid
  deviceId : Option Uuid
  approvedAt : Option Timestamp
  createdAt : Timestamp
deriving DecidableEq

def cliEnrollmentSchema : Schema CliEnrollment Uuid where
  name := "console_identity.cli_enrollment"
  key := (·.enrollmentId)
  check e :=
    labelCheck e.label && publicJwkCond e.publicJwk != some false &&
    fingerprintFormat e.fingerprint && decide (octetLength e.userCodeDigest = 32) &&
    decide (octetLength e.pollTokenDigest = 32) && decide (e.createdAt < e.expiresAt) &&
    (e.subjectId.isSome == e.approved) && (e.deviceId.isSome == e.approved) &&
    (e.approvedAt.isSome == e.approved)
  clash a b := decide (a.userCodeDigest = b.userCodeDigest ∨ a.pollTokenDigest = b.pollTokenDigest ∨
    (a.deviceId ≠ none ∧ a.deviceId = b.deviceId))

/-- `console_identity.cli_challenge`. -/
structure CliChallenge where
  challengeId : Uuid
  deviceId : Uuid
  nonceDigest : Bytes
  expiresAt : Timestamp
  usedAt : Option Timestamp
  createdAt : Timestamp
deriving DecidableEq

def cliChallengeSchema : Schema CliChallenge Uuid where
  name := "console_identity.cli_challenge"
  key := (·.challengeId)
  check c :=
    decide (octetLength c.nonceDigest = 32) && decide (c.createdAt < c.expiresAt) &&
    c.usedAt.all fun t => decide (c.createdAt ≤ t)
  clash a b := decide (a.nonceDigest = b.nonceDigest)

/-- `console_identity.cli_session`. -/
structure CliSession where
  sessionId : Uuid
  subjectId : Uuid
  deviceId : Uuid
  tokenDigest : Bytes
  permissionRevision : Int
  revokeEpoch : Int
  createdAt : Timestamp
  lastUsedAt : Timestamp
  expiresAt : Timestamp
  revokedAt : Option Timestamp
  revokeReason : Option String
deriving DecidableEq

def cliSessionSchema : Schema CliSession Uuid where
  name := "console_identity.cli_session"
  key := (·.sessionId)
  check r :=
    decide (octetLength r.tokenDigest = 32) && counter r.permissionRevision &&
    counter r.revokeEpoch && decide (r.createdAt < r.expiresAt) &&
    revocationCheck r.revokedAt r.revokeReason
  clash a b := decide (a.tokenDigest = b.tokenDigest)

/-! ## Managed roles -/

inductive Role where
  | admins
  | operators
  | viewers
deriving DecidableEq, Repr

def Role.all : List Role := [admins, operators, viewers]

def Role.text : Role → String
  | admins => "console-admins"
  | operators => "console-operators"
  | viewers => "console-viewers"

def Role.ofText (s : String) : Option Role := Role.all.find? fun r => r.text == s

def Role.marker : Role → String
  | admins => "console.role.admin"
  | operators => "console.role.operator"
  | viewers => "console.role.viewer"

/-- The migrations that define the role policy.  A site is brought from one to
the next. -/
inductive Policy where
  | managedIdentityRoles
  | platformChangePermission
  | nativeShellAuthority
  | nativeOsaaServingAuthority
deriving DecidableEq, Repr

/-! ## The site -/

structure Site where
  /-- `auth.users`. -/
  users : List Uuid
  subjects : Table Authority.subjectAuthoritySchema
  sessions : Table sessionSchema
  grants : Table Authority.permissionGrantSchema
  environment : Option ModuleInstallationEnvironment
  policy : Policy
  devices : Table cliDeviceSchema
  enrollments : Table cliEnrollmentSchema
  challenges : Table cliChallengeSchema
  cliSessions : Table cliSessionSchema
  operations : Table Authority.operationSchema
  outbox : Table Authority.outboxSchema
  approvals : Table Authority.approvalSchema
  verifications : Table Authority.verificationReceiptSchema
  receipts : Table Authority.executionReceiptSchema
  revocations : Table Authority.revocationSchema
  events : Table Authority.eventSchema

/-- A site where nobody has been given authority yet. -/
def Site.fresh (users : List Uuid) (environment : Option ModuleInstallationEnvironment)
    (policy : Policy) : Site where
  users := users
  subjects := .empty
  sessions := .empty
  grants := .empty
  environment := environment
  policy := policy
  devices := .empty
  enrollments := .empty
  challenges := .empty
  cliSessions := .empty
  operations := .empty
  outbox := .empty
  approvals := .empty
  verifications := .empty
  receipts := .empty
  revocations := .empty
  events := .empty

/-- The sessions with the columns the operation functions read. -/
def coreSessions (t : Table sessionSchema) : Table Authority.browserSessionSchema :=
  t.project (·.toBrowserSession)
    (by
      intro r hr
      simp only [sessionSchema, Bool.and_eq_true] at hr
      simp [Authority.browserSessionSchema, hr.1.1.1.1.1.1.1.1.1.1, hr.1.1.1.1.1.1.1.1.1.2])
    (by
      intro a b hab
      simp only [Schema.conflict, sessionSchema, Bool.or_eq_false_iff] at hab
      have hne : a.sessionId ≠ b.sessionId := of_decide_eq_false hab.1
      simp [Schema.conflict, Authority.browserSessionSchema, hne])

def Site.db (site : Site) : Authority.Db where
  identity := {
    subjects := site.subjects
    sessions := coreSessions site.sessions
    grants := site.grants
    environment := site.environment }
  operations := site.operations
  outbox := site.outbox
  approvals := site.approvals
  verifications := site.verifications
  receipts := site.receipts
  revocations := site.revocations
  events := site.events

/-- A session with the columns an operation function has left in its row. -/
def Session.withCore (r : Session) (db : Authority.Db) : Session :=
  match db.identity.sessions.lookup (some r.sessionId) with
  | some core => { r with toBrowserSession := core }
  | none => r

/-- The site after an operation function has left `db`. -/
def Site.setDb (site : Site) (db : Authority.Db) : Except SqlError Site := do
  let sessions ← site.sessions.updateWhere (fun _ => true) fun r => r.withCore db
  return { site with
    subjects := db.identity.subjects
    sessions
    grants := db.identity.grants
    environment := db.identity.environment
    operations := db.operations
    outbox := db.outbox
    approvals := db.approvals
    verifications := db.verifications
    receipts := db.receipts
    revocations := db.revocations
    events := db.events }

/-- `console_audit.append_event_internal`. -/
def Site.append (D : Digest) (s : Statement) (site : Site) (a : EventArgs) :
    Except SqlError Site := do
  let db ← Authority.appendEvent D s site.db a
  return { site with events := db.events }

/-- The hash functions: the digest of a document, and `sha256(convert_to(x, 'UTF8'))`
of a text. -/
structure Crypto where
  digest : Digest
  sha256 : String → Bytes

/-- `encode(x, 'hex')`. -/
def encodeHex (x : Bytes) : String :=
  String.ofList (x.flatMap fun b => [Nat.digitChar (b.toNat / 16), Nat.digitChar (b.toNat % 16)])

end ConsoleIdentity
