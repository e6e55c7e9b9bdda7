import OpenSphere.Codec.Utf8
import OpenSphere.Command.Contract
import OpenSphere.Shell.Statements

/-!
# The command ledger

The table `console_shell.command_request` and its two functions, which alone write it.
`claim_command` inserts a row for a request that has none and otherwise returns what the row
says.  `finish_command` records the outcome of a row that has none.

`Ledger.Later` is what every call keeps: a row stays, with its command and its digest, and
what it records stays recorded.
-/

open Sql
open Authority (exception between)
open ConsoleShell (Shell shellActorHasPermission)

namespace Command

inductive Phase where
  | dispatching
  | recorded
deriving DecidableEq

/-- `console_shell.command_request`. -/
structure CommandRequest where
  actorId : Uuid
  requestId : Uuid
  sessionId : Uuid
  command : String
  inputDigest : String
  aal : String
  phase : Phase
  result : Option Jsonb
  createdAt : Timestamp
  recordedAt : Option Timestamp
deriving DecidableEq

abbrev Key := Uuid × Uuid

def commandRequestSchema : Sql.Schema CommandRequest Key where
  name := "console_shell.command_request"
  key r := (r.actorId, r.requestId)
  check r :=
    between (textLength r.command) 3 128 && commandFormat r.command &&
    Authority.digestFormat r.inputDigest && ["aal1", "aal2"].contains r.aal &&
    match r.phase with
    | .dispatching => r.result.isNone && r.recordedAt.isNone
    | .recorded => r.result.isSome && r.recordedAt.isSome
  clash _ _ := false

structure Ledger where
  shell : Shell
  requests : Table commandRequestSchema

/-- The arguments of `claim_command`. -/
structure ClaimArgs where
  actor : Uuid
  session : Uuid
  request : Uuid
  command : String
  digest : String
  aal : String

def ClaimArgs.key (p : ClaimArgs) : Key := (p.actor, p.request)

def browserAal (db : Shell) (now : Timestamp) (session actor : Uuid) : Option String := do
  let b ← db.site.sessions.lookup (some session)
  let a ← db.site.subjects.lookup (some b.subjectId)
  if b.subjectId = actor ∧ b.revokedAt = none ∧ now < b.expiresAt ∧ now < b.absoluteExpiresAt ∧
      b.permissionRevision = a.permissionRevision ∧ b.revokeEpoch = a.revokeEpoch then
    some b.aal.text
  else none

def cliAal (db : Shell) (now : Timestamp) (session actor : Uuid) : Option String := do
  let c ← db.site.cliSessions.lookup (some session)
  let d ← db.site.devices.lookup (some c.deviceId)
  let a ← db.site.subjects.lookup (some c.subjectId)
  if c.subjectId = actor ∧ c.revokedAt = none ∧ now < c.expiresAt ∧ d.active = true ∧
      c.permissionRevision = a.permissionRevision ∧ c.revokeEpoch = a.revokeEpoch then
    some "aal1"
  else none

/-- What `claim_command` returns. -/
inductive Claim where
  | conflict
  /-- Whether the call inserted the row, and the result of the row. -/
  | found (claimed : Bool) (result : Option Jsonb)
deriving DecidableEq

/-- The checks of `claim_command`. -/
def claimChecks (now : Timestamp) (p : ClaimArgs) (db : Shell) : Except SqlError Unit := do
  let actual := (browserAal db now p.session p.actor).or (cliAal db now p.session p.actor)
  raiseIf (some (actual ≠ some p.aal)) (exception "ShellCommandSessionInvalid" "28000" "")
  raiseIf (some (!shellActorHasPermission db (some p.actor) "console.role.admin"))
    (exception "ShellCommandPermissionDenied" "42501" "")
  raiseIf (some (actual ≠ some "aal2" && !db.site.environment.any fun e =>
      e.channel == "edge" && Authority.localOriginFormat e.consoleOrigin))
    (exception "ShellCommandMfaRequired" "42501" "")

/-- The row `claim_command` inserts. -/
def ClaimArgs.row (p : ClaimArgs) (now : Timestamp) : CommandRequest where
  actorId := p.actor
  requestId := p.request
  sessionId := p.session
  command := p.command
  inputDigest := p.digest
  aal := p.aal
  phase := .dispatching
  result := none
  createdAt := now
  recordedAt := none

def CommandRequest.claim (r : CommandRequest) (p : ClaimArgs) (inserted : Bool) : Claim :=
  if r.command ≠ p.command ∨ r.inputDigest ≠ p.digest then .conflict
  else .found inserted r.result

/-- `console_shell.claim_command`.  The constraints of the row are checked before its key is. -/
def claimCommand (now : Timestamp) (p : ClaimArgs) (db : Ledger) :
    Except SqlError (Ledger × Claim) := do
  claimChecks now p db.shell
  if !commandRequestSchema.check (p.row now) then .error (.check commandRequestSchema.name)
  else
    match db.requests.lookup (some p.key) with
    | some r => return (db, r.claim p false)
    | none =>
        let requests ← db.requests.insert (p.row now)
        return ({ db with requests := requests }, (p.row now).claim p true)

/-- The arguments of `finish_command`. -/
structure FinishArgs where
  actor : Uuid
  request : Uuid
  digest : String
  result : Jsonb

/-- `octet_length(x::text)`. -/
def documentOctets (x : Jsonb) : Nat := (Codec.Utf8.encode x.tree.chars).length

def CommandRequest.finish (r : CommandRequest) (now : Timestamp) (result : Jsonb) :
    CommandRequest :=
  { r with phase := .recorded, result := some result, recordedAt := some now }

/-- `console_shell.finish_command`. -/
def finishCommand (now : Timestamp) (p : FinishArgs) (db : Ledger) : Except SqlError Ledger := do
  raiseIf (some (p.result.typeof ≠ "object" ∨ 1048576 < documentOctets p.result))
    (exception "ShellCommandResultInvalid" "22023" "")
  match db.requests.lookup (some (p.actor, p.request)) with
  | some r =>
      if r.inputDigest = p.digest ∧ r.phase = .dispatching then
        let requests ← db.requests.put (r.finish now p.result)
        return { db with requests := requests }
      else .error (exception "ShellCommandRecordConflict" "40001" "")
  | none => .error (exception "ShellCommandRecordConflict" "40001" "")

/-! ## What a call keeps -/

variable {now : Timestamp} {db db' : Ledger}

def Ledger.row (db : Ledger) (k : Key) : Option CommandRequest := db.requests.lookup (some k)

structure CommandRequest.Later (r r' : CommandRequest) : Prop where
  command : r'.command = r.command
  inputDigest : r'.inputDigest = r.inputDigest
  result : ∀ x, r.result = some x → r'.result = some x

theorem CommandRequest.Later.refl (r : CommandRequest) : r.Later r := ⟨rfl, rfl, fun _ h => h⟩

theorem CommandRequest.Later.trans {r r' r'' : CommandRequest} (h : r.Later r')
    (h' : r'.Later r'') : r.Later r'' :=
  ⟨h'.command.trans h.command, h'.inputDigest.trans h.inputDigest,
    fun x hx => h'.result x (h.result x hx)⟩

def Ledger.Later (db db' : Ledger) : Prop :=
  ∀ k r, db.row k = some r → ∃ r', db'.row k = some r' ∧ r.Later r'

theorem Ledger.Later.refl (db : Ledger) : db.Later db := fun _ r h => ⟨r, h, .refl r⟩

theorem Ledger.Later.trans {db'' : Ledger} (h : db.Later db') (h' : db'.Later db'') :
    db.Later db'' := by
  intro k r hr
  obtain ⟨r', hr', hlater⟩ := h k r hr
  obtain ⟨r'', hr'', hlater'⟩ := h' k r' hr'
  exact ⟨r'', hr'', hlater.trans hlater'⟩

theorem claimCommand_cases {p : ClaimArgs} {c : Claim} (h : claimCommand now p db = .ok (db', c)) :
    (∃ r, db.row p.key = some r ∧ db' = db ∧ c = r.claim p false) ∨
      (db.row p.key = none ∧ c = .found true none ∧
        ∀ k, db'.row k = if k = p.key then some (p.row now) else db.row k) := by
  unfold claimCommand at h
  obtain ⟨_, -, h⟩ := bind_eq_ok.mp h
  split at h
  next => cases h
  next =>
    split at h
    next r hr =>
      cases h
      exact .inl ⟨r, hr, rfl, rfl⟩
    next hnone =>
      obtain ⟨requests, hinsert, hreturn⟩ := bind_eq_ok.mp h
      cases hreturn
      refine .inr ⟨hnone, ?_, Table.lookup_insert hinsert⟩
      simp [CommandRequest.claim, ClaimArgs.row]

theorem finishCommand_cases {p : FinishArgs} (h : finishCommand now p db = .ok db') :
    ∃ r, db.row (p.actor, p.request) = some r ∧ r.phase = .dispatching ∧
      ∀ k, db'.row k =
        if k = (p.actor, p.request) then some (r.finish now p.result) else db.row k := by
  unfold finishCommand at h
  obtain ⟨_, -, h⟩ := bind_eq_ok.mp h
  split at h
  next r hr =>
    split at h
    next hopen =>
      obtain ⟨requests, hput, hreturn⟩ := bind_eq_ok.mp h
      cases hreturn
      refine ⟨r, hr, hopen.2, fun k => ?_⟩
      have hkey : commandRequestSchema.key (r.finish now p.result) = (p.actor, p.request) :=
        (Option.some.inj (Table.lookup_eq_some.mp hr).2).symm
      refine (Table.lookup_put hput k).trans ?_
      by_cases hk : k = (p.actor, p.request)
      · rw [if_pos hk, if_pos (hk.trans hkey.symm), hk, hr, Option.map_some]
      · rw [if_neg hk, if_neg fun hsame => hk (hsame.trans hkey)]
        rfl
    next => cases h
  next => cases h

theorem claimCommand_later {p : ClaimArgs} {c : Claim} (h : claimCommand now p db = .ok (db', c)) :
    db.Later db' := by
  rcases claimCommand_cases h with ⟨_, -, rfl, -⟩ | ⟨hnone, -, hrows⟩
  · exact .refl _
  · intro k r hr
    refine ⟨r, ?_, .refl r⟩
    rw [hrows, if_neg, hr]
    rintro rfl
    rw [hnone] at hr
    cases hr

theorem result_of_dispatching {k : Key} {r : CommandRequest} (hr : db.row k = some r)
    (hphase : r.phase = .dispatching) : r.result = none := by
  have hcheck := db.requests.checked r (Table.lookup_eq_some.mp hr).1
  simp only [commandRequestSchema, Bool.and_eq_true, hphase] at hcheck
  exact Option.isNone_iff_eq_none.mp hcheck.2.1

theorem finishCommand_later {p : FinishArgs} (h : finishCommand now p db = .ok db') :
    db.Later db' := by
  obtain ⟨r, hr, hphase, hrows⟩ := finishCommand_cases h
  intro k x hx
  rw [hrows]
  split
  next hk =>
    subst hk
    rw [hr, Option.some.injEq] at hx
    subst hx
    refine ⟨_, rfl, rfl, rfl, fun y hy => ?_⟩
    rw [result_of_dispatching hr hphase] at hy
    cases hy
  next => exact ⟨x, hx, .refl x⟩

end Command
