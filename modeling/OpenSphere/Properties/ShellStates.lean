import OpenSphere.Properties.Leases

/-!
# The states of a shell session

What no call undoes: the end of a session, its counters, and the runtime of a
generation (`Later`).  A session is Ready only after a runtime was registered
for it.  `registered_history` finds the registration in the run: it was made in
the generation the session is still in, while the session was Provisioning and
wanted, and for the runtime the row still records, as long as every
registration the guard lets through names a runtime and finds one recorded.
-/

open Sql

namespace ConsoleShell

variable {C : ShellCrypto} {t : Clock} {db db' : Shell} {c : Call} {r r' : ShellSession}

/-! ## What is never undone -/

structure Later (r r' : ShellSession) : Prop where
  observed : r.observedState = .terminated → r'.observedState = .terminated
  desired : r.desiredState = .terminated → r'.desiredState = .terminated
  generation : r.generation ≤ r'.generation
  epoch : r.fencingEpoch ≤ r'.fencingEpoch
  runtimeUid : r.runtimeUid ≠ none → r'.generation = r.generation → r'.runtimeUid = r.runtimeUid

theorem Later.refl (r : ShellSession) : Later r r := ⟨id, id, le_refl _, le_refl _, fun _ _ => rfl⟩

theorem Later.trans {r'' : ShellSession} (h : Later r r') (h' : Later r' r'') : Later r r'' where
  observed hr := h'.observed (h.observed hr)
  desired hr := h'.desired (h.desired hr)
  generation := le_trans h.generation h'.generation
  epoch := le_trans h.epoch h'.epoch
  runtimeUid huid hgeneration := by
    -- the generation in between lies between two equal ones
    have hfirst : r'.generation = r.generation :=
      le_antisymm (hgeneration ▸ h'.generation) h.generation
    have hsame := h.runtimeUid huid hfirst
    rw [h'.runtimeUid (hsame ▸ huid) (hgeneration.trans hfirst.symm), hsame]

/-- A transition that is let through starts from the state of the session. -/
theorem moved_from {p : TransitionArgs} {next : Observed}
    (hadmitted : transitionRefused t.start r p ≠ some true)
    (hvalid : Cond.not (validTransition p.expectedState p.nextState) ≠ some true)
    (hgoal : p.nextState.bind Observed.ofText = some next) :
    validTransition (some r.observedState.text) p.nextState = some true := by
  obtain ⟨text, htext⟩ : ∃ text, p.nextState = some text := by
    cases hnext : p.nextState with
    | none => simp [hnext] at hgoal
    | some text => exact ⟨text, rfl⟩
  cases hexpected : p.expectedState with
  | none =>
      rw [hexpected] at hvalid
      exact absurd rfl hvalid
  | some expected =>
      have hstate : r.observedState.text = expected :=
        ne_passed (any_ne_true hadmitted (ne (some r.observedState.text) p.expectedState)
          (by simp)) rfl hexpected
      rw [hexpected, htext] at hvalid
      rw [hstate, htext]
      have hdecided : ∃ b, validTransition (some expected) (some text) = some b := by
        unfold validTransition
        split <;> exact ⟨_, rfl⟩
      obtain ⟨b, hb⟩ := hdecided
      cases b
      · rw [hb] at hvalid
        exact absurd rfl hvalid
      · exact hb

theorem Observed.ofText_text (s : Observed) : Observed.ofText s.text = some s := by
  cases s <;> decide

theorem not_valid_terminated (next : Option String) :
    validTransition (some Observed.terminated.text) next ≠ some true := by
  rw [validTransition, Option.bind_some, Observed.ofText_text]
  exact fun h => Bool.false_ne_true (Option.some.inj h)

theorem Change.later (h : Change C t db c r r') : Later r r' := by
  cases h with
  | teardown | revoked | disabled => exact ⟨id, fun _ => rfl, le_refl _, le_refl _, fun _ _ => rfl⟩
  | claimed =>
      refine ⟨id, id, le_refl _, ?_, fun _ _ => rfl⟩
      simp only [ShellSession.claimed]
      omega
  | renewed =>
      refine ⟨id, fun hr => ?_, le_refl _, le_refl _, fun _ _ => rfl⟩
      simp only [Shell.renewed]
      split
      · rfl
      · exact hr
  | @reprojected p r named admitted =>
      have hpassed := any_ne_true admitted
      have hrunning : r.desiredState = .running := by
        simpa using hpassed (some (decide (r.desiredState ≠ .running))) (by simp)
      have hstate : r.observedState ∈ [Observed.provisioning, .ready, .failed] :=
        not_not.mp (of_decide_eq_false (decided_passed (hpassed _
          (List.mem_append_right _ (List.mem_cons_of_mem _ (List.mem_cons_self ..))))))
      refine ⟨fun hr => ?_, fun hr => ?_, ?_, le_refl _, fun _ hgeneration => ?_⟩
      · rw [hr] at hstate
        exact absurd hstate (by decide)
      · rw [hr] at hrunning
        cases hrunning
      · simp only [ShellSession.reprojected]
        omega
      · simp only [ShellSession.reprojected] at hgeneration
        omega
  | registered | touched | attached => exact ⟨id, id, le_refl _, le_refl _, fun _ _ => rfl⟩
  | @moved p r revision next named authority admitted valid wanted registered bound goal =>
      have hvalid := moved_from admitted valid goal
      refine ⟨fun hr => ?_, fun hr => ?_, le_refl _, le_refl _, fun huid _ => ?_⟩
      · rw [hr] at hvalid
        exact absurd hvalid (not_valid_terminated _)
      · simp only [ShellSession.moved]
        split
        · rfl
        · exact hr
      · obtain ⟨uid, hr⟩ := Option.ne_none_iff_exists'.mp huid
        simp [ShellSession.moved, hr]

/-! ## Along a run -/

/-- An action is a call that commits, or leaves the shell tables alone. -/
theorem perform_step (C : ShellCrypto) (a : Action) (db : Shell) :
    ((perform C a db).sessions = db.sessions ∧ (perform C a db).tickets = db.tickets ∧
      (perform C a db).control = db.control) ∨
      ∃ t c, a = .call t c ∧ c.exec C t db = .ok (perform C a db) ∧
        CallStep C t db c (perform C a db) := by
  rcases perform_cases C a db with hsame | hok
  · exact .inl (by rw [hsame]; exact ⟨rfl, rfl, rfl⟩)
  · cases a with
    | call t c => exact .inr ⟨t, c, rfl, hok, call_step hok⟩
    | identity x =>
        simp only [Action.exec, bind_eq_ok, pure_eq_ok] at hok
        obtain ⟨site, -, heq⟩ := hok
        exact .inl (by rw [← heq]; exact ⟨rfl, rfl, rfl⟩)
    | migrate m =>
        cases hok
        exact .inl ⟨rfl, rfl, rfl⟩

theorem perform_lookup (C : ShellCrypto) (a : Action) (db : Shell) (k : Uuid) :
    (perform C a db).sessions.lookup (some k) = db.sessions.lookup (some k) ∨
      (∃ t c r r', a = .call t c ∧ db.sessions.lookup (some k) = some r ∧
        (perform C a db).sessions.lookup (some k) = some r' ∧ Change C t db c r r') ∨
      ∃ t p r, a = .call t (.createShellSession p) ∧ Created t db p r ∧
        db.sessions.lookup (some k) = none ∧
        (perform C a db).sessions.lookup (some k) = some r := by
  rcases perform_step C a db with ⟨hsame, -⟩ | ⟨t, c, rfl, -, hstep⟩
  · exact .inl (by rw [hsame])
  · rcases hstep.sessions.lookup k with hsame | ⟨r, r', hr, hr', hchange⟩ |
      ⟨p, r, rfl, hcreated, hnone, hr⟩
    · exact .inl hsame
    · exact .inr (.inl ⟨t, c, r, r', rfl, hr, hr', hchange⟩)
    · exact .inr (.inr ⟨t, p, r, rfl, hcreated, hnone, hr⟩)

theorem run_session {R : ShellSession → ShellSession → Prop} (hrefl : ∀ r, R r r)
    (htrans : ∀ {r r' r''}, R r r' → R r' r'' → R r r'')
    (hchange : ∀ {t db c r r'}, Change C t db c r r' → R r r') (as : List Action) (db : Shell)
    (k : Uuid) (hr : db.sessions.lookup (some k) = some r) :
    ∃ r', (System.run (perform C) as db).sessions.lookup (some k) = some r' ∧ R r r' := by
  induction as generalizing db r with
  | nil => exact ⟨r, hr, hrefl r⟩
  | cons a as ih =>
      rcases perform_lookup C a db k with hsame | ⟨t, c, x, r', -, hx, hr', hstep⟩ |
        ⟨t, p, x, -, -, hnone, -⟩
      · exact ih (perform C a db) (hsame.trans hr)
      · obtain rfl : x = r := Option.some.inj (hx.symm.trans hr)
        obtain ⟨r'', hr'', hlater⟩ := ih (perform C a db) hr'
        exact ⟨r'', hr'', htrans (hchange hstep) hlater⟩
      · rw [hr] at hnone
        cases hnone

theorem run_later (C : ShellCrypto) (as : List Action) (db : Shell) (k : Uuid)
    (hr : db.sessions.lookup (some k) = some r) :
    ∃ r', (System.run (perform C) as db).sessions.lookup (some k) = some r' ∧ Later r r' :=
  run_session .refl .trans Change.later as db k hr

theorem claim_epoch {worker : Option String} {limit : Option Int} {locked : List Uuid}
    {rows : List ShellSession} (h : claimShellSessions t worker limit locked db = .ok (db', rows)) :
    ∀ x ∈ rows, ∃ r, db.sessions.lookup (some x.sessionId) = some r ∧
      db'.sessions.lookup (some x.sessionId) = some x ∧ r.fencingEpoch < x.fencingEpoch := by
  intro x hx
  obtain ⟨sessions, events, hupdate, rfl, rfl⟩ := claim_eq_ok h
  obtain ⟨r, hr, rfl⟩ := List.mem_map.mp hx
  have hmem : r ∈ db.sessions.rows := by
    have htaken := List.mem_of_mem_take hr
    rw [List.mem_insertionSort] at htaken
    exact (List.mem_filter.mp htaken).1
  have hlook : db.sessions.lookup (some r.sessionId) = some r :=
    Table.lookup_eq_some.mpr ⟨hmem, rfl⟩
  refine ⟨r, hlook, ?_, ?_⟩
  · have hkept := Table.lookup_updateWhere hupdate (fun _ => rfl) r.sessionId
    rw [hlook, Option.map_some, if_pos (decide_eq_true hr)] at hkept
    exact hkept
  · simp only [ShellSession.claimed]
    omega

/-! ## The registration of a Ready session -/

theorem newSession_row {p : CreateArgs} (h : newSession t.now p = .ok r) :
    r.observedState = .pending ∧ r.desiredState = .running ∧ r.runtimeRegisteredAt = none ∧
      p.sessionId = some r.sessionId ∧ p.actorId = some r.actorId ∧
      p.idleExpiresAt = some r.idleExpiresAt := by
  simp only [newSession, bind_eq_ok, notNull_eq_ok, orRaise_eq_ok, pure_eq_ok] at h
  obtain ⟨id, hid, _, -, actor, hactor, _, -, _, -, _, -, _, -, _, -, idle, hidle, _, -, _, -, _, -,
    _, -, _, -, _, -, _, -, rfl⟩ := h
  exact ⟨rfl, rfl, rfl, hid, hactor, hidle⟩

def ReadyRegistered (db : Shell) : Prop :=
  ∀ k r, db.sessions.lookup (some k) = some r → r.observedState = .ready →
    r.runtimeRegisteredAt ≠ none

theorem Change.ready (h : Change C t db c r r') (hr : r.observedState = .ready →
    r.runtimeRegisteredAt ≠ none) : r'.observedState = .ready → r'.runtimeRegisteredAt ≠ none := by
  cases h with
  | reprojected => exact fun hready => by cases hready
  | registered => exact fun _ => by simp [ShellSession.registered]
  | @moved p r revision next named authority admitted valid wanted registered bound goal =>
      intro hready
      obtain rfl : next = .ready := hready
      have htext : p.nextState = some "Ready" := by
        cases hnext : p.nextState with
        | none => simp [hnext] at goal
        | some text =>
            rw [hnext, Option.bind_some] at goal
            have hfound := List.find?_some goal
            rw [beq_iff_eq] at hfound
            exact congrArg some hfound.symm
      rw [htext] at registered
      have hbound : r.runtimeRegisteredAt ≠ none := by simpa using registered
      exact hbound
  | _ => exact hr

theorem run_ready (C : ShellCrypto) (as : List Action) (hdb : ReadyRegistered db) :
    ReadyRegistered (System.run (perform C) as db) := by
  refine System.run_invariant (I := ReadyRegistered) ?_ hdb as
  intro a s hs k r' hr'
  rcases perform_lookup C a s k with hsame | ⟨t, c, x, y, -, hx, hy, hchange⟩ |
    ⟨t, p, x, -, hcreated, -, hx⟩
  · exact hs k r' (hsame.symm.trans hr')
  · obtain rfl : y = r' := Option.some.inj (hy.symm.trans hr')
    exact hchange.ready (hs k x hx)
  · obtain rfl : x = r' := Option.some.inj (hx.symm.trans hr')
    intro hready
    rw [(newSession_row hcreated.row).1] at hready
    cases hready

/-- Every registration the guard lets through names a runtime and finds one recorded. -/
def NamesRuntime (a : Action) (db : Shell) : Prop :=
  ∀ t p r, a = .call t (.registerShellRuntime p) →
    db.sessions.lookup p.fence.sessionId = some r → registerRefused t.start r p ≠ some true →
    r.runtimeUid ≠ none ∧ p.runtimeUid ≠ none

/-- At a place of a run, the runtime of the row `r` was registered. -/
structure RegisteredAt (C : ShellCrypto) (start : Shell) (as : List Action) (n : Nat) (k : Uuid)
    (r : ShellSession) : Prop where
  place : ∃ t p s, as[n]? = some (.call t (.registerShellRuntime p)) ∧
    (System.run (perform C) (as.take n) start).sessions.lookup (some k) = some s ∧
    (System.run (perform C) (as.take (n + 1)) start).sessions.lookup (some k) =
      some (s.registered t.start p) ∧
    s.observedState = .provisioning ∧ s.desiredState = .running ∧
    s.generation = r.generation ∧ s.runtimeUid = r.runtimeUid ∧ p.runtimeUid = s.runtimeUid
  recorded : r.runtimeUid ≠ none

/-- A place of a run is a place of the longer run. -/
theorem RegisteredAt.snoc {start : Shell} {as : List Action} {n : Nat} {k : Uuid}
    (h : RegisteredAt C start as n k r) (a : Action)
    (hgeneration : r'.generation = r.generation) (huid : r'.runtimeUid = r.runtimeUid) :
    RegisteredAt C start (as ++ [a]) n k r' := by
  obtain ⟨⟨t, p, s, hn, hs, hs', hobserved, hdesired, hgen, hsuid, hpuid⟩, hrecorded⟩ := h
  have hlt : n < as.length := (List.getElem?_eq_some_iff.mp hn).1
  have htake : (as ++ [a]).take n = as.take n := List.take_append_of_le_length (by omega)
  have htake' : (as ++ [a]).take (n + 1) = as.take (n + 1) :=
    List.take_append_of_le_length (by omega)
  refine ⟨⟨t, p, s, ?_, ?_, ?_, hobserved, hdesired, hgen.trans hgeneration.symm,
    hsuid.trans huid.symm, hpuid⟩, by rw [huid]; exact hrecorded⟩
  · rw [List.getElem?_append_left hlt, hn]
  · rw [htake, hs]
  · rw [htake', hs']

/-- A change that leaves a runtime registered is its registration, or keeps its generation
and, if it was recorded, its identity. -/
theorem Change.registration (h : Change C t db c r r') (hr' : r'.runtimeRegisteredAt ≠ none) :
    (∃ p, c = .registerShellRuntime p ∧ r' = r.registered t.start p ∧
      p.fence.sessionId = some r.sessionId ∧ registerRefused t.start r p ≠ some true) ∨
    (r.runtimeRegisteredAt ≠ none ∧ r'.generation = r.generation ∧
      (r.runtimeUid ≠ none → r'.runtimeUid = r.runtimeUid)) := by
  have hlater := h.later
  cases h with
  | registered named admitted => exact .inl ⟨_, rfl, rfl, named, admitted⟩
  | reprojected => exact absurd rfl hr'
  | _ => exact .inr ⟨hr', rfl, fun huid => hlater.runtimeUid huid rfl⟩

/-- A registration the guard lets through is of the runtime of a Provisioning session that
is wanted. -/
theorem register_admitted {p : RegisterArgs} (h : registerRefused t.start r p ≠ some true) :
    r.observedState = .provisioning ∧ r.desiredState = .running ∧
      (r.runtimeUid ≠ none → p.runtimeUid ≠ none → p.runtimeUid = r.runtimeUid) := by
  have hpassed := any_ne_true h
  refine ⟨?_, ?_, fun hr hp => ?_⟩
  · simpa using hpassed (some (decide (r.observedState ≠ .provisioning))) (by simp)
  · simpa using hpassed (some (decide (r.desiredState ≠ .running))) (by simp)
  · obtain ⟨uid, huid⟩ := Option.ne_none_iff_exists'.mp hr
    obtain ⟨named, hnamed⟩ := Option.ne_none_iff_exists'.mp hp
    rw [huid, hnamed, ne_passed (hpassed (ne r.runtimeUid p.runtimeUid) (by simp)) huid hnamed]

theorem registered_history {start : Shell} (hstart : start.sessions.rows = [])
    (as : List Action) (has : System.Along (perform C) NamesRuntime as start) (k : Uuid)
    (hr : (System.run (perform C) as start).sessions.lookup (some k) = some r)
    (hregistered : r.runtimeRegisteredAt ≠ none) :
    ∃ n, RegisteredAt C start as n k r := by
  -- the last action registered the runtime, or it was registered before
  induction as using List.reverseRecOn generalizing r with
  | nil => simp [System.run, Table.lookup, hstart] at hr
  | append_singleton as a ih =>
      obtain ⟨hearlier, hlast, -⟩ := System.Along.append.mp has
      have hbefore : (as ++ [a]).take as.length = as := List.take_left
      have hall : (as ++ [a]).take (as.length + 1) = as ++ [a] :=
        List.take_of_length_le (by simp)
      have hrun : System.run (perform C) (as ++ [a]) start =
          perform C a (System.run (perform C) as start) := System.run_append ..
      rw [hrun] at hr
      rcases perform_lookup C a (System.run (perform C) as start) k with hsame |
        ⟨t, c, x, y, rfl, hx, hy, hchange⟩ | ⟨t, p, x, -, hcreated, -, hx⟩
      · obtain ⟨n, hn⟩ := ih hearlier (hsame.symm.trans hr) hregistered
        exact ⟨n, hn.snoc a rfl rfl⟩
      · obtain rfl : y = r := Option.some.inj (hy.symm.trans hr)
        rcases hchange.registration hregistered with
          ⟨p, rfl, rfl, hnamed, hadmitted⟩ | ⟨hbound, hgeneration, huid⟩
        · have hkey := (lookup_mem hx).2
          obtain ⟨hrecorded, hgiven⟩ := hlast t p x rfl (by rw [hnamed, ← hkey, hx]) hadmitted
          obtain ⟨hobserved, hdesired, hsame⟩ := register_admitted hadmitted
          refine ⟨as.length, ⟨t, p, x, by simp, ?_, ?_, hobserved, hdesired, rfl, rfl,
            hsame hrecorded hgiven⟩, hrecorded⟩
          · rw [hbefore, hx]
          · rw [hall, hrun, hy]
        · obtain ⟨n, hn⟩ := ih hearlier hx hbound
          exact ⟨n, hn.snoc _ hgeneration (huid hn.recorded)⟩
      · obtain rfl : x = r := Option.some.inj (hx.symm.trans hr)
        exact absurd (newSession_row hcreated.row).2.2.1 hregistered

/-- The states of a session, in every run from an installation.  What is done to a session
is not undone, and a claim takes a larger epoch.  If the registrations of the run name their
runtimes, a Ready session was registered in its generation and for its recorded runtime,
while it was Provisioning and wanted. -/
theorem shell_session_states (C : ShellCrypto) (site : ConsoleIdentity.Site)
    (changedAt : Timestamp) (migration : AppliedMigration) (as : List Action) :
    (∀ n m k r, n ≤ m →
      (System.run (perform C) (as.take n)
        (.installed site changedAt migration)).sessions.lookup (some k) = some r →
      ∃ r', (System.run (perform C) (as.take m)
        (.installed site changedAt migration)).sessions.lookup (some k) = some r' ∧ Later r r') ∧
    (∀ n t worker limit locked db' rows,
      as[n]? = some (.call t (.claimShellSessions worker limit locked)) →
      claimShellSessions t worker limit locked (System.run (perform C) (as.take n)
        (.installed site changedAt migration)) = .ok (db', rows) →
      ∀ x ∈ rows, ∃ r, (System.run (perform C) (as.take n)
          (.installed site changedAt migration)).sessions.lookup (some x.sessionId) = some r ∧
        db'.sessions.lookup (some x.sessionId) = some x ∧ r.fencingEpoch < x.fencingEpoch) ∧
    (System.Along (perform C) NamesRuntime as (.installed site changedAt migration) →
      ∀ k r, (System.run (perform C) as
          (.installed site changedAt migration)).sessions.lookup (some k) = some r →
        r.observedState = .ready →
        ∃ n, RegisteredAt C (.installed site changedAt migration) as n k r) := by
  refine ⟨fun n m k r hnm hr => ?_, fun n t worker limit locked db' rows _ h => claim_epoch h,
    fun has k r hr hready => ?_⟩
  · rw [System.run_take_of_le (perform C) hnm]
    exact run_later C _ _ k hr
  · have hregistered : ReadyRegistered (System.run (perform C) as
        (.installed site changedAt migration)) :=
      run_ready C as fun k r hr => by cases hr
    exact registered_history rfl as has k hr (hregistered k r hr hready)

/-! ## A runtime nobody registered -/

namespace Demo

/-- The material of a runtime, registered for a Pod. -/
def registration (uid : Option String) : RegisterArgs where
  fence := fence
  actorId := some Authority.Demo.alice
  permissionRevision := revision
  runtimeUid := uid
  runtimeResourceVersion := some "1"
  runtimeKeyId := some "runtime-key"
  runtimePublicKeyPem :=
    some "0123456789012345678901234567890123456789012345678901234567890123456789"
  runtimeTlsCertificateSha256 := some migration.migrationSetDigest
  runtimeAttachEndpoint := some "wss://pod:8443/v1/runtime/attach"
  runtimeCredentialHash := some migration.migrationSetDigest
  runtimeCredentialExpiresAt := some (Authority.Demo.noon + seconds 1800)

/-- Session 9 becomes Ready with a Pod. -/
def readiness (uid : Option String) : TransitionArgs where
  fence := fence
  actorId := some Authority.Demo.alice
  expectedState := some "Provisioning"
  nextState := some "Ready"
  permissionRevision := revision
  runtimeUid := uid
  runtimeResourceVersion := none
  reasonCode := some "RuntimeRegistered"

/-- Session 9 is claimed, provisioned with `created`, registered for `registered` and made
Ready with `ready`. -/
def attempt (created registered ready : Option String) : List Action := [
  setup, create 4 9, claim 5,
  .call (clock 6) (.transitionShellSession { provisioning fence with runtimeUid := created }),
  .call (clock 7) (.registerShellRuntime (registration registered)),
  .call (clock 8) (.transitionShellSession (readiness ready))]

theorem attempt_registers {created registered ready : Option String} {n : Nat} {t : Clock}
    {p : RegisterArgs}
    (h : (attempt created registered ready)[n]? = some (.call t (.registerShellRuntime p))) :
    n = 4 ∧ p = registration registered := by
  match n with
  | 0 | 1 | 2 | 3 => cases h
  | 4 =>
      cases h
      exact ⟨rfl, rfl⟩
  | 5 | n + 6 => cases h

end Demo

/-- The session of a run whose registration names the Pod was registered at its fifth
action. -/
theorem demo_ready :
    ∃ r, (Demo.after (Demo.attempt (some "pod-1") (some "pod-1") (some "pod-1"))).sessions.lookup
        (some ⟨9⟩) = some r ∧ r.observedState = .ready ∧
      ∃ n, RegisteredAt Demo.crypto (.installed ConsoleIdentity.Demo.loggedIn
        Authority.Demo.noon Demo.migration)
        (Demo.attempt (some "pod-1") (some "pod-1") (some "pod-1")) n ⟨9⟩ r := by
  have hrun : (((Demo.after (Demo.attempt (some "pod-1") (some "pod-1") (some "pod-1"))
      ).sessions.lookup (some ⟨9⟩)).any (fun r => decide (r.observedState = .ready)) &&
      ((Demo.after ((Demo.attempt (some "pod-1") (some "pod-1") (some "pod-1")).take 4)
      ).sessions.lookup (some ⟨9⟩)).all (·.runtimeUid.isSome)) = true := by
    simp only [Demo.attempt, List.take_succ_cons, Demo.after_setup]
    decide +kernel
  obtain ⟨hready, hrecorded⟩ := Bool.and_eq_true_iff.mp hrun
  obtain ⟨r, hr, htest⟩ := (Option.any_eq_true _ _).mp hready
  have has : System.Along (perform Demo.crypto) NamesRuntime
      (Demo.attempt (some "pod-1") (some "pod-1") (some "pod-1"))
      (.installed ConsoleIdentity.Demo.loggedIn Authority.Demo.noon Demo.migration) := by
    refine System.Along.of_get fun n a hn t p x hcall hx _ => ?_
    subst hcall
    obtain ⟨rfl, rfl⟩ := Demo.attempt_registers hn
    have hnamed : (Demo.registration (some "pod-1")).fence.sessionId = some ⟨9⟩ := rfl
    have hsome := hrecorded
    rw [hnamed] at hx
    rw [Demo.after, hx] at hsome
    exact ⟨Option.isSome_iff_ne_none.mp hsome, Option.some_ne_none _⟩
  exact ⟨r, hr, of_decide_eq_true htest,
    (shell_session_states Demo.crypto _ _ _ _).2.2 has ⟨9⟩ r hr (of_decide_eq_true htest)⟩

/-- A session becomes Ready with a runtime that was never registered: the session is
provisioned without a runtime, and one Pod is registered but another recorded. -/
theorem ready_without_registration :
    ∃ r, (Demo.after (Demo.attempt none (some "pod-1") (some "pod-2"))).sessions.lookup
        (some ⟨9⟩) = some r ∧ r.observedState = .ready ∧ r.runtimeUid = some "pod-2" ∧
      ∀ n, ¬ RegisteredAt Demo.crypto (.installed ConsoleIdentity.Demo.loggedIn
        Authority.Demo.noon Demo.migration) (Demo.attempt none (some "pod-1") (some "pod-2")) n
        ⟨9⟩ r := by
  have hrun : ((Demo.after (Demo.attempt none (some "pod-1") (some "pod-2"))).sessions.lookup
      (some ⟨9⟩)).any (fun r => decide (r.observedState = .ready) &&
        decide (r.runtimeUid = some "pod-2")) = true := by
    rw [Demo.attempt, Demo.after_setup]
    decide +kernel
  obtain ⟨r, hr, htest⟩ := (Option.any_eq_true _ _).mp hrun
  rw [Bool.and_eq_true, decide_eq_true_eq, decide_eq_true_eq] at htest
  refine ⟨r, hr, htest.1, htest.2, ?_⟩
  rintro n ⟨⟨t, p, s, hn, -, -, -, -, -, hsuid, hpuid⟩, -⟩
  -- the only registration of the run names the other Pod
  have hp : p.runtimeUid = some "pod-1" := by
    rw [(Demo.attempt_registers hn).2]
    rfl
  rw [hpuid, hsuid, htest.2] at hp
  exact absurd hp (by decide)

end ConsoleShell
