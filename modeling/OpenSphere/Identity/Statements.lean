import Mathlib.Data.List.Dedup
import Mathlib.Data.List.Sort
import OpenSphere.Identity.Schema

/-!
# Statements of the identity functions

The guards, lookups and updates that several identity functions contain, and
the trigger `browser_session_aal2_transition`.  A guard is a list of conditions
joined by `OR`, so a function is given as the lists it joins.
-/

open Sql
open Authority (Aal SubjectAuthority PermissionGrant Digest Statement EventArgs Outcome exception
  staleAuthority sessionInvalid jsonUuid jsonText jsonInt jsonTime)

namespace ConsoleIdentity

/-! ## Arguments -/

/-- `p_correlation_id` is NULL, of the wrong length or broken over lines. -/
def correlationInvalid (x : Option String) : List Cond :=
  [notBetween (some (textLength (coalesce x ""))) 8 128, holds hasNewline x]

/-- `p_reason` of a managed change is NULL, of the wrong length or broken over
lines. -/
def reasonInvalid (x : Option String) : List Cond :=
  [notBetween (some (textLength (btrim (coalesce x "")))) 8 500, holds hasNewline x]

/-- `octet_length(x) <> 32`. -/
def digestInvalid (x : Option Bytes) : Cond := ne (x.map octetLength) (some 32)

/-- `octet_length(COALESCE(x, ''::bytea)) <> 32`. -/
def digestMissing (x : Option Bytes) : Cond := ne (some (octetLength (coalesce x []))) (some 32)

def envelopeInvalid (x : Option String) : List Cond :=
  [fails envelopeFormat x, notBetween (x.map textLength) 32 16384]

/-- `p_auth_session_ref` is NULL or malformed. -/
def authSessionRefInvalid (x : Option String) : List Cond :=
  [isNull x, notBetween (x.map textLength) 1 256, holds hasControl x]

structure Credentials where
  accessTokenCiphertext : Option String
  refreshTokenCiphertext : Option String
  authSessionRef : Option String
  accessTokenExpiresAt : Option Timestamp

/-- The access credential is expired or lasts too long. -/
def accessExpiryInvalid (s : Statement) (x : Option Timestamp) : List Cond :=
  [le x (some s.now), lt (some (s.now + days 30)) x]

def credentialsInvalid (s : Statement) (c : Credentials) : List Cond :=
  isNull c.accessTokenCiphertext :: envelopeInvalid c.accessTokenCiphertext ++
    isNull c.refreshTokenCiphertext :: envelopeInvalid c.refreshTokenCiphertext ++
    authSessionRefInvalid c.authSessionRef ++ accessExpiryInvalid s c.accessTokenExpiresAt

def requestInvalid (message : String) : SqlError := exception message "22023" "ValidationFailed"

/-! ## Lookups -/

/-- `SELECT * FROM browser_session WHERE token_digest = ...`. -/
def Site.sessionOfToken (site : Site) (token : Option Bytes) : Option Session :=
  token.bind fun d => site.sessions.rows.find? fun r => decide (r.tokenDigest = d)

def Site.freshAuthority (site : Site) (r : Session) (subjectId : Option Uuid) :
    Except SqlError SubjectAuthority := do
  let authority ← orRaise (site.subjects.lookup subjectId) staleAuthority
  raiseIf (.any [
    ne (some authority.permissionRevision) (some r.permissionRevision),
    ne (some authority.revokeEpoch) (some r.revokeEpoch)]) staleAuthority
  return authority

def Session.ended (s : Statement) (r : Session) : List Cond :=
  [isNotNull r.revokedAt, le (some r.expiresAt) (some s.now),
    le (some r.absoluteExpiresAt) (some s.now)]

/-- `array_agg(DISTINCT x ORDER BY x)`. -/
def aggDistinct (l : List String) : List String := l.dedup.insertionSort (· ≤ ·)

@[simp] theorem mem_aggDistinct {x : String} {l : List String} : x ∈ aggDistinct l ↔ x ∈ l := by
  simp [aggDistinct]

/-- `v_permissions`: what a subject holds up to a revision. -/
def Site.permissions (site : Site) (subjectId : Uuid) (revision : Int) : List String :=
  aggDistinct ((site.grants.rows.filter fun g =>
    decide (g.subjectId = subjectId) && decide (g.grantRevision ≤ revision) &&
      g.revokedAt.isNone).map (·.permission))

/-! ## Updates of a session -/

/-- `mark_browser_session_aal2_transition`, which runs on every UPDATE OF aal. -/
def markAal2Transition (s : Statement) (old new : Session) : Session :=
  if new.aal = .aal2 ∧ old.aal ≠ .aal2 ∧ new.lastReauthenticatedAt = none then
    { new with lastReauthenticatedAt := some s.now }
  else new

def Session.withCredentials (r : Session) (c : Credentials) : Session :=
  { r with
    authSessionRef := c.authSessionRef
    accessTokenCiphertext := c.accessTokenCiphertext
    refreshTokenCiphertext := c.refreshTokenCiphertext
    accessTokenExpiresAt := c.accessTokenExpiresAt }

def idleExpiry (s : Statement) (r : Session) : Timestamp :=
  min r.absoluteExpiresAt (s.now + hours 12)

/-- A revoked session.  Some functions set `last_seen_at` as well. -/
def Session.revoke (s : Statement) (reason : String) (seen : Bool) (r : Session) : Session :=
  { r with
    revokedAt := some s.now
    revokeReason := some reason
    lastSeenAt := if seen then s.now else r.lastSeenAt }

/-- `UPDATE browser_session ... WHERE session_id = ... RETURNING *`, with `r` the
row afterwards. -/
def Site.putSession (site : Site) (r : Session) : Except SqlError Site := do
  let t ← site.sessions.put r
  return { site with sessions := t }

/-- `UPDATE browser_session SET revoked_at = ..., revoke_reason = ... WHERE p AND
revoked_at IS NULL`, with the number of rows. -/
def Site.revokeSessions (site : Site) (s : Statement) (reason : String) (seen : Bool)
    (p : Session → Bool) : Except SqlError (Site × Nat) := do
  let q := fun r : Session => p r && r.revokedAt.isNone
  let t ← site.sessions.updateWhere q (Session.revoke s reason seen)
  return ({ site with sessions := t }, (site.sessions.rows.filter q).length)

/-! ## Updates of an authority -/

/-- `UPDATE subject_authority ... WHERE subject_id = ... RETURNING *`. -/
def Site.putAuthority (site : Site) (a : SubjectAuthority) : Except SqlError Site := do
  let t ← site.subjects.put a
  return { site with subjects := t }

/-- A reference to `auth.users` that does not hold. -/
def foreignKeyViolation (table : String) : SqlError :=
  exception (String.append table " refers to an absent row") "23503" ""

/-- `INSERT INTO subject_authority`. -/
def Site.insertAuthority (site : Site) (a : SubjectAuthority) : Except SqlError Site := do
  raiseIf (some (decide (a.subjectId ∉ site.users)))
    (foreignKeyViolation "console_identity.subject_authority")
  let t ← site.subjects.insert a
  return { site with subjects := t }

/-- The rows of `INSERT INTO permission_grant ... SELECT subject, permission,
revision FROM unnest(permissions)`. -/
def newGrants (subjectId : Uuid) (revision : Int) (permissions : List String) :
    List PermissionGrant :=
  permissions.map fun p =>
    { subjectId, permission := p, grantRevision := revision, revokedAt := none }

/-- `INSERT INTO permission_grant`. -/
def Site.insertGrants (site : Site) (rows : List PermissionGrant) : Except SqlError Site := do
  let t ← Table.ofRows (site.grants.rows ++ rows)
  return { site with grants := t }

/-! ## Audit -/

def identityEvent (correlationId actorRef : Option String) (action : String)
    (targetRef : Option String) (outcome : Outcome) (reason : Option String)
    (evidence : List (String × Jsonb)) : EventArgs where
  operationId := none
  correlationId := correlationId
  actorRef := actorRef
  action := action
  targetRef := targetRef
  outcome := outcome
  reason := reason
  evidence := .object evidence

/-- `'browser-session:' || session_id::text`. -/
def sessionRef (id : Uuid) : Option String := some (String.append "browser-session:" id.text)

/-- `p_subject_id::text`. -/
def uuidText (x : Option Uuid) : Option String := x.map Uuid.text

def jsonTexts (l : List (Option String)) : Jsonb :=
  ⟨.arr (l.foldr (fun t rest => .cons (t.elim .null .str) rest) .nil), by
    induction l with
    | nil => rfl
    | cons t l ih => cases t <;> exact Bool.and_eq_true_iff.mpr ⟨rfl, ih⟩⟩

def jsonNat (n : Nat) : Jsonb := .ofInt n

end ConsoleIdentity
