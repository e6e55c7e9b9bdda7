import OpenSphere.Shell.Schema

/-!
# Statements of the shell functions

The authority checks, guards and updates that several shell functions contain,
the trigger `shell_session_monotonic_guard`, and what each of them does when it
commits.  A guard is a list of conditions joined by `OR`, so a function is given
as the lists it joins.

A row lock makes calls on one session wait for each other, so a call is one
step.  Only its `v_now` is older than the step.
-/

open Sql
open Authority (SubjectAuthority exception hasPermission)
open ConsoleIdentity (Site encodeHex foreignKeyViolation)

namespace ConsoleShell

variable {C : ShellCrypto} {db db' : Shell}
variable {actorId id : Option Uuid} {r : ShellSession} {f : ShellSession → ShellSession} {u : Unit}

/-- `RAISE EXCEPTION message`. -/
def raisedException (message : String) : SqlError := exception message "P0001" ""

/-- `RAISE EXCEPTION message USING ERRCODE='40001'`. -/
def fenceLostError (message : String) : SqlError := exception message "40001" ""

/-! ## Authority -/

def permissionRevisionOf (C : ShellCrypto) (site : Site) (a : SubjectAuthority) : String :=
  String.append "sha256:" (encodeHex (C.sha256 (String.join [
    "permissionRevision=", decimal a.permissionRevision,
    "\nrevokeEpoch=", decimal a.revokeEpoch,
    "\npermissions=",
    String.intercalate "\x1f" (site.permissions a.subjectId a.permissionRevision)])))

theorem encodeHex_digits (x : ConsoleIdentity.Bytes) :
    (chars (encodeHex x)).length = 2 * x.length ∧
      ∀ c ∈ chars (encodeHex x), hexLower c = true := by
  rw [encodeHex, chars_ofList]
  constructor
  · simp [List.length_flatMap, Nat.mul_comm]
  · intro c hc
    obtain ⟨b, -, hb⟩ := List.mem_flatMap.mp hc
    have hlt := b.toNat_lt
    rcases List.mem_pair.mp hb with rfl | rfl
    · exact hexLower_digitChar (by omega)
    · exact hexLower_digitChar (by omega)

theorem digest_format {x : ConsoleIdentity.Bytes} (h : x.length = 32) :
    Authority.digestFormat (String.append "sha256:" (encodeHex x)) = true := by
  obtain ⟨hlength, hdigits⟩ := encodeHex_digits x
  have hchars : chars (String.append "sha256:" (encodeHex x)) =
      chars "sha256:" ++ chars (encodeHex x) := by
    simp only [chars_eq]
    exact String.toList_append
  have hclass := matchClass_length hdigits
  rw [hlength, h] at hclass
  rw [Authority.digestFormat, Pattern.full, hchars]
  simp only [Pattern.seq, List.foldr, Pattern.text, Pattern.times]
  rw [matchChars_append]
  exact hclass

theorem permissionRevisionOf_format (C : ShellCrypto) (site : Site) (a : SubjectAuthority) :
    Authority.digestFormat (permissionRevisionOf C site a) = true := digest_format (C.octets _)

/-- `console_shell.current_shell_permission_revision`. -/
def currentShellPermissionRevision (C : ShellCrypto) (site : Site) (actorId : Option Uuid) :
    Except SqlError String := do
  let a ← orRaise (site.subjects.lookup actorId)
    (exception "shell actor authority is unavailable" "28000" "")
  return permissionRevisionOf C site a

/-- `console_shell.shell_actor_has_permission`. -/
def shellActorHasPermission (db : Shell) (actorId : Option Uuid) (permission : String) : Bool :=
  db.control.enabled && match db.site.subjects.lookup actorId with
    | some a => hasPermission db.site.db actorId (some permission) (some a.permissionRevision)
    | none => false

/-- `console_shell.assert_shell_authority`. -/
def assertShellAuthority (C : ShellCrypto) (db : Shell) (actorId : Option Uuid)
    (permissionRevision : Option String) (requireAttach : Bool) : Except SqlError Unit := do
  let current ← currentShellPermissionRevision C db.site actorId
  raiseIf (distinct permissionRevision (some current))
    (fenceLostError "shell permission revision changed")
  raiseIf (some (requireAttach && !shellActorHasPermission db actorId "session:attach"))
    (exception "session:attach permission is required" "42501" "")

/-- The authority of a session is the one it was last bound to. -/
structure CurrentRevision (C : ShellCrypto) (site : Site) (actorId : Option Uuid)
    (revision : Option String) : Prop where
  current : ∃ a, site.subjects.lookup actorId = some a ∧
    revision = some (permissionRevisionOf C site a)

theorem currentShellPermissionRevision_eq_ok {site : Site} {t : String} :
    currentShellPermissionRevision C site actorId = .ok t ↔
      ∃ a, site.subjects.lookup actorId = some a ∧ permissionRevisionOf C site a = t := by
  simp only [currentShellPermissionRevision, bind_eq_ok, orRaise_eq_ok, pure_eq_ok]

theorem assertShellAuthority_eq_ok {revision : Option String} {b : Bool}
    :
    assertShellAuthority C db actorId revision b = .ok u ↔
      CurrentRevision C db.site actorId revision ∧
        (b = true → shellActorHasPermission db actorId "session:attach" = true) := by
  simp only [assertShellAuthority, bind_eq_ok, currentShellPermissionRevision_eq_ok, raiseIf_eq_ok]
  constructor
  · rintro ⟨_, ⟨a, hlook, rfl⟩, _, hrev, hattach⟩
    refine ⟨⟨a, hlook, ?_⟩, ?_⟩
    · simpa using hrev
    · intro hb
      simpa [hb] using hattach
  · rintro ⟨⟨a, hlook, hrev⟩, hattach⟩
    refine ⟨_, ⟨a, hlook, rfl⟩, (), ?_, ?_⟩
    · simpa using hrev
    · cases b
      · simp
      · simp [hattach rfl]

/-- Nobody holds a shell permission while the feature is off. -/
theorem shellActorHasPermission_enabled {permission : String}
    (h : shellActorHasPermission db actorId permission = true) : db.control.enabled = true := by
  simp only [shellActorHasPermission, Bool.and_eq_true] at h
  exact h.1

/-! ## Arguments -/

/-- What a browser's call names of a session. -/
structure Binding where
  sessionId : Option Uuid
  browserSessionId : Option Uuid
  actorId : Option Uuid
  origin : Option String
  generation : Option Int
  fencingEpoch : Option Int
  aal : Option String
  permissionRevision : Option String

def bindingChanged (r : ShellSession) (b : Binding) : List Cond :=
  [ne (some r.browserSessionId) b.browserSessionId, ne (some r.actorId) b.actorId,
    ne (some r.origin) b.origin, ne (some r.generation) b.generation,
    ne (some r.fencingEpoch) b.fencingEpoch, ne (some r.aal.text) b.aal,
    ne (some r.permissionRevision) b.permissionRevision,
    some (decide (r.desiredState ≠ .running)), some (decide (r.observedState ≠ .ready))]

/-- What a worker's call names of its claim. -/
structure Fence where
  sessionId : Option Uuid
  worker : Option String
  generation : Option Int
  fencingEpoch : Option Int

def fenceLost (now : Timestamp) (r : ShellSession) (f : Fence) : List Cond :=
  [ne r.leaseOwner f.worker, ne (some r.generation) f.generation,
    ne (some r.fencingEpoch) f.fencingEpoch, le r.leaseExpiresAt (some now)]

/-- A browser session with the authority it was issued under and its lifetime not over,
which the functions join to a shell session. -/
def browserCurrent (now : Timestamp) (b : ConsoleIdentity.Session) (o : SubjectAuthority)
    (aal : Option String) : List Cond :=
  [isNull b.revokedAt, eq (some b.aal.text) aal,
    eq (some b.permissionRevision) (some o.permissionRevision),
    eq (some b.revokeEpoch) (some o.revokeEpoch), lt (some now) (some b.expiresAt),
    lt (some now) (some b.absoluteExpiresAt)]

/-- `EXISTS(SELECT 1 FROM browser_session b JOIN subject_authority o ON o.subject_id =
b.subject_id WHERE ...)`. -/
def browserActive (site : Site) (now : Timestamp) (b : Binding) : Bool :=
  site.sessions.rows.any fun x => site.subjects.rows.any fun o =>
    Cond.all ([eq (some o.subjectId) (some x.subjectId), eq (some x.sessionId) b.browserSessionId,
      eq (some x.subjectId) b.actorId] ++ browserCurrent now x o b.aal) == some true

/-! ## Updates of sessions -/

/-- `console_shell.guard_shell_session_mutation`. -/
def guardShellSessionMutation (old new : ShellSession) : Except SqlError Unit := do
  raiseIf (.any [ne (some new.sessionId) (some old.sessionId),
      ne (some new.browserSessionId) (some old.browserSessionId),
      ne (some new.actorId) (some old.actorId),
      ne (some new.runtimeTemplateRevision) (some old.runtimeTemplateRevision),
      ne (some new.origin) (some old.origin), ne (some new.release) (some old.release)])
    (fenceLostError "immutable shell session binding changed")
  raiseIf (.any [lt (some new.generation) (some old.generation),
      lt (some new.fencingEpoch) (some old.fencingEpoch)])
    (fenceLostError "stale shell generation or fencing epoch")
  raiseIf (.all [isNotNull old.runtimeUid, distinct new.runtimeUid old.runtimeUid,
      eq (some new.generation) (some old.generation)])
    (fenceLostError "runtime UID changed without a new generation")

/-- `UPDATE shell_session SET ... WHERE p`, with `f` the assignment.  The trigger sees
each row before it is stored. -/
def Shell.updateSessions (db : Shell) (p : ShellSession → Bool) (f : ShellSession → ShellSession) :
    Except SqlError Shell := do
  (db.sessions.rows.filter p).forM fun r => guardShellSessionMutation r (f r)
  let t ← db.sessions.updateWhere p f
  return { db with sessions := t }

/-- `UPDATE shell_session SET ... WHERE session_id = ...`. -/
def Shell.updateSession (db : Shell) (id : Uuid) (f : ShellSession → ShellSession) :
    Except SqlError Shell :=
  db.updateSessions (fun r => decide (r.sessionId = id)) f

/-- `INSERT INTO shell_session`. -/
def Shell.insertSession (db : Shell) (r : ShellSession) : Except SqlError Shell := do
  raiseIf (some (decide (r.actorId ∉ db.site.users)))
    (foreignKeyViolation "console_shell.shell_session")
  let t ← db.sessions.insert r
  return { db with sessions := t }

/-! ## Updates of tickets -/

/-- `UPDATE shell_attach_ticket SET expires_at = least(expires_at, v_now) WHERE p AND
expires_at > v_now`. -/
def Shell.expireTickets (db : Shell) (now : Timestamp) (p : AttachTicket → Bool) :
    Except SqlError Shell := do
  let t ← db.tickets.updateWhere (fun x => p x && decide (now < x.expiresAt))
    fun x => { x with expiresAt := min x.expiresAt now }
  return { db with tickets := t }

/-! ## Events -/

def newSessionEvent (t : Timestamp) (eventType : SessionEventType) (result : EventResult)
    (reasonCode : ReasonCode) (r : ShellSession) : SessionEvent where
  sessionId := r.sessionId
  actorId := r.actorId
  generation := r.generation
  fencingEpoch := r.fencingEpoch
  eventType := eventType
  result := result
  reasonCode := reasonCode
  origin := r.origin
  permissionRevision := r.permissionRevision
  aal := r.aal
  release := r.release
  occurredAt := t

/-- A value of `reason_code`. -/
def newReasonCode (x : Option String) : Except SqlError ReasonCode := do
  let t ← notNull x "reason_code"
  if h : reasonCodeFormat t = true then .ok ⟨t, h⟩
  else .error (.check "console_shell.shell_session_event")

/-- `console_shell.append_shell_session_event`. -/
def Shell.append (db : Shell) (t : Timestamp) (sessionId : Option Uuid)
    (eventType : SessionEventType) (result : EventResult) (reasonCode : Option String) :
    Except SqlError Shell := do
  let r ← orRaise (db.sessions.lookup sessionId) (raisedException "shell session not found")
  let code ← newReasonCode reasonCode
  return { db with events := db.events ++ [newSessionEvent t eventType result code r] }

/-! ## What the statements do -/

/-- A loop of checks passes exactly when each check does. -/
theorem forM_eq_ok {ε α : Type} {g : α → Except ε Unit} {l : List α} :
    l.forM g = .ok u ↔ ∀ x ∈ l, g x = .ok () := by
  induction l with
  | nil => exact iff_of_true rfl (List.forall_mem_nil _)
  | cons x l ih =>
      have hstep : (x :: l).forM g = (g x >>= fun _ => l.forM g) := rfl
      rw [hstep, bind_eq_ok, List.forall_mem_cons, ← ih]
      exact ⟨fun ⟨_, hx, hl⟩ => ⟨hx, hl⟩, fun ⟨hx, hl⟩ => ⟨(), hx, hl⟩⟩

structure Guarded (old new : ShellSession) : Prop where
  sessionId : new.sessionId = old.sessionId
  browserSessionId : new.browserSessionId = old.browserSessionId
  actorId : new.actorId = old.actorId
  template : new.runtimeTemplateRevision = old.runtimeTemplateRevision
  origin : new.origin = old.origin
  release : new.release = old.release
  generation : old.generation ≤ new.generation
  fencingEpoch : old.fencingEpoch ≤ new.fencingEpoch
  runtimeUid : old.runtimeUid ≠ none → new.generation = old.generation →
    new.runtimeUid = old.runtimeUid

theorem guardShellSessionMutation_eq_ok {old new : ShellSession} :
    guardShellSessionMutation old new = .ok u ↔ Guarded old new := by
  simp only [guardShellSessionMutation, bind_eq_ok, raiseIf_eq_ok, ne_eq, Cond.any_eq_true,
    Cond.all_eq_true, List.mem_cons, List.not_mem_nil, or_false, exists_eq_or_imp,
    exists_eq_left, forall_eq_or_imp, forall_eq, ne_eq_true, lt_eq_true, eq_eq_true,
    isNotNull_eq_true, distinct_eq_true, Option.some.injEq, exists_and_left, exists_eq_left',
    not_or, not_lt, exists_const, not_and, not_not]
  constructor
  · rintro ⟨⟨h1, h2, h3, h4, h5, h6⟩, ⟨h7, h8⟩, h9⟩
    refine ⟨h1, h2, h3, h4, h5, h6, h7, h8, fun huid hgen => ?_⟩
    by_contra hne
    exact h9 huid hne hgen.symm
  · intro h
    exact ⟨⟨h.sessionId, h.browserSessionId, h.actorId, h.template, h.origin, h.release⟩,
      ⟨h.generation, h.fencingEpoch⟩, fun huid hne hgen => hne (h.runtimeUid huid hgen.symm)⟩

theorem updateSessions_eq_ok {p : ShellSession → Bool} :
    db.updateSessions p f = .ok db' ↔
      (∀ r ∈ db.sessions.rows, p r = true → Guarded r (f r)) ∧
        ∃ sessions, db.sessions.updateWhere p f = .ok sessions ∧
          db' = { db with sessions := sessions } := by
  simp only [Shell.updateSessions, bind_eq_ok, forM_eq_ok, guardShellSessionMutation_eq_ok,
    List.mem_filter, and_imp, pure_eq_ok]
  constructor
  · rintro ⟨_, hguard, sessions, hupdate, rfl⟩
    exact ⟨hguard, sessions, hupdate, rfl⟩
  · rintro ⟨hguard, sessions, hupdate, rfl⟩
    exact ⟨(), hguard, sessions, hupdate, rfl⟩

/-- The sessions after an update of the one with the row `r`. -/
def Shell.Replaces (db : Shell) (r : ShellSession) (f : ShellSession → ShellSession)
    (sessions : Table shellSessionSchema) : Prop :=
  r ∈ db.sessions.rows ∧
    List.Forall₂ (fun x y => y = x ∧ x ≠ r ∨ x = r ∧ y = f r) db.sessions.rows sessions.rows

/-- The tickets with the expiries of some of them shortened to `now`. -/
def Shell.Expires (db : Shell) (now : Timestamp) (p : AttachTicket → Bool)
    (tickets : Table attachTicketSchema) : Prop :=
  db.tickets.updateWhere (fun x => p x && decide (now < x.expiresAt))
    (fun x => { x with expiresAt := min x.expiresAt now }) = .ok tickets

theorem lookup_mem (h : db.sessions.lookup id = some r) :
    r ∈ db.sessions.rows ∧ id = some r.sessionId := Table.lookup_eq_some.mp h

theorem updateSession_replaces (hlook : db.sessions.lookup id = some r)
    (h : db.updateSession r.sessionId f = .ok db') : id = some r.sessionId ∧
      ∃ sessions, db.Replaces r f sessions ∧ db' = { db with sessions := sessions } := by
  obtain ⟨hr, hid⟩ := lookup_mem hlook
  obtain ⟨-, sessions, hupdate, rfl⟩ := updateSessions_eq_ok.mp h
  refine ⟨hid, sessions, ⟨hr, (Table.updateWhere_forall₂ hupdate).imp fun x y hxy => ?_⟩, rfl⟩
  obtain ⟨hx, rfl⟩ := hxy
  by_cases hid : x.sessionId = r.sessionId
  · obtain rfl : x = r := Table.eq_of_key_eq hx hr hid
    exact .inr ⟨rfl, by simp⟩
  · exact .inl ⟨by simp [hid], fun he => hid (he ▸ rfl)⟩

/-- The update of one session commits where the trigger and the CHECK constraints let its
new row through. -/
theorem updateSession_commits
    (hr : r ∈ db.sessions.rows) (hguard : Guarded r (f r)) (hkey : ∀ x, (f x).sessionId = x.sessionId)
    (hcheck : shellSessionSchema.check (f r) = true) :
    ∃ sessions, db.updateSession r.sessionId f = .ok { db with sessions := sessions } ∧
      sessions.lookup (some r.sessionId) = some (f r) := by
  have hone : ∀ x ∈ db.sessions.rows, decide (x.sessionId = r.sessionId) = true → x = r :=
    fun x hx hid => Table.eq_of_key_eq hx hr (of_decide_eq_true hid)
  obtain ⟨sessions, hupdate⟩ := (Table.updateWhere_commits hkey fun _ _ => rfl).mpr fun x hx hid => by
    rw [hone x hx hid]
    exact hcheck
  refine ⟨sessions, updateSessions_eq_ok.mpr ⟨fun x hx hid => ?_, sessions, hupdate, rfl⟩, ?_⟩
  · rw [hone x hx hid]
    exact hguard
  · have hlookup : db.sessions.lookup (some r.sessionId) = some r :=
      Table.lookup_eq_some.mpr ⟨hr, rfl⟩
    rw [Table.lookup_updateWhere hupdate hkey, hlookup]
    simp

theorem insertSession_eq_ok (h : db.insertSession r = .ok db') :
    ∃ sessions, db.sessions.insert r = .ok sessions ∧ db' = { db with sessions := sessions } := by
  simp only [Shell.insertSession, bind_eq_ok, pure_eq_ok] at h
  obtain ⟨_, -, sessions, hinsert, rfl⟩ := h
  exact ⟨sessions, hinsert, rfl⟩

theorem expireTickets_eq_ok {now : Timestamp} {p : AttachTicket → Bool} :
    db.expireTickets now p = .ok db' ↔
      ∃ tickets, db.Expires now p tickets ∧ db' = { db with tickets := tickets } := by
  simp only [Shell.expireTickets, bind_eq_ok, pure_eq_ok, Shell.Expires]
  constructor
  · rintro ⟨x, h, rfl⟩
    exact ⟨x, h, rfl⟩
  · rintro ⟨x, h, rfl⟩
    exact ⟨x, h, rfl⟩

/-- Tickets can be expired at `now` exactly when each of them was issued before. -/
theorem expires_iff {now : Timestamp} {p : AttachTicket → Bool} :
    (∃ tickets, db.Expires now p tickets) ↔
      ∀ x ∈ db.tickets.rows, p x = true → now < x.expiresAt → x.createdAt < now := by
  refine Iff.trans (Table.updateWhere_commits ?_ fun _ _ => rfl) (forall₂_congr fun x hx => ?_)
  · exact fun _ => rfl
  rw [Bool.and_eq_true, decide_eq_true_eq, and_imp]
  refine forall₂_congr fun _ hlate => ?_
  have hchecked := db.tickets.checked x hx
  simp only [attachTicketSchema, Bool.and_eq_true, decide_eq_true_eq] at hchecked ⊢
  obtain ⟨⟨⟨⟨⟨hcolumns, hcreated⟩, hshort⟩, hconsumed⟩, hauthorized⟩, horder⟩ := hchecked
  rw [min_eq_right (le_of_lt hlate)]
  constructor
  · rintro ⟨⟨⟨⟨⟨-, hbefore⟩, -⟩, -⟩, -⟩, -⟩
    exact hbefore
  · intro hbefore
    exact ⟨⟨⟨⟨⟨hcolumns, hbefore⟩, le_trans (le_of_lt hlate) hshort⟩, hconsumed⟩, hauthorized⟩,
      horder⟩

theorem append_commits {t : Timestamp} {eventType : SessionEventType}
    {result : EventResult} {code : String}
    (hr : db.sessions.lookup id = some r) (hcode : reasonCodeFormat code = true) :
    ∃ events, db.append t id eventType result (some code) =
      .ok { db with events := events } := by
  simp only [Shell.append, newReasonCode, hr, orRaise, notNull]
  exact ⟨_, by simp [hcode, bind, Except.bind, pure, Except.pure]; rfl⟩

theorem append_eq_ok {t : Timestamp} {eventType : SessionEventType}
    {result : EventResult} {reasonCode : Option String}
    (h : db.append t id eventType result reasonCode = .ok db') :
    ∃ events, db' = { db with events := events } := by
  simp only [Shell.append, bind_eq_ok, pure_eq_ok] at h
  obtain ⟨_, -, _, -, rfl⟩ := h
  exact ⟨_, rfl⟩

end ConsoleShell
