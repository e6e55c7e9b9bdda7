import OpenSphere.Properties.Teardown
import OpenSphere.Shell.Reconciler

/-!
# Teardown and the reconciler

A session whose row asks for its end is claimed and reconciled by a process that
is alone, answered at once and by everybody.  It ends exactly when the revision
its row records is still the revision of its actor (`Steady`): the client
compares the two before every transition, also those the database lets through
under a changed revision.  Nothing in the reconciler refreshes the row, so a
session whose actor was revised after its teardown was asked for is claimed and
given up again each time its lease runs out.
-/

open Sql
open System (Safe Discipline)
open Js (maxSafeInteger)

namespace ConsoleShell

variable {C : ShellCrypto} {t : Clock} {db db' : Shell} {r row : ShellSession}
variable {next : Observed} {code : String} {p : TransitionArgs}

/-! ## Rows -/

/-- A session that takes a transition towards its end meets the CHECK constraints. -/
theorem moved_checked {now : Timestamp} {revision : String}
    (h : shellSessionSchema.check r = true) (hrevision : Authority.digestFormat revision = true)
    (hnext : next = .terminating ∨ next = .terminated) (huid : p.runtimeUid = r.runtimeUid)
    (hversion : p.runtimeResourceVersion = none) (hfence : p.fence.generation = some r.generation) :
    shellSessionSchema.check (r.moved now p revision next) = true := by
  simp only [shellSessionSchema, Bool.and_eq_true] at h ⊢
  obtain ⟨⟨⟨⟨⟨⟨⟨hbinding, hgeneration⟩, hepoch⟩, -⟩, hruntime⟩, hlease⟩, hlifetime⟩, herror⟩ := h
  refine ⟨⟨⟨⟨⟨⟨⟨hbinding, hgeneration⟩, hepoch⟩, hrevision⟩, ?_⟩, ?_⟩, ?_⟩, ?_⟩
  · simp only [runtimeCheck, Bool.and_eq_true] at hruntime ⊢
    obtain ⟨⟨⟨⟨⟨⟨⟨⟨hname, hresource⟩, -⟩, hkey⟩, hpem⟩, htls⟩, hendpoint⟩, hhash⟩, hregistration⟩ :=
      hruntime
    refine ⟨⟨⟨⟨⟨⟨⟨⟨?_, ?_⟩, ?_⟩, hkey⟩, hpem⟩, htls⟩, hendpoint⟩, hhash⟩, hregistration⟩
    · simpa [ShellSession.moved, huid] using hname
    · simpa [ShellSession.moved, hversion] using hresource
    · simp only [positive, Authority.between, decide_eq_true_eq] at hgeneration
      simp only [ShellSession.moved, hfence, Option.getD_some, Option.all_some, decide_eq_true_eq]
      omega
  · rcases hnext with rfl | rfl
    · simpa [leaseCheck, ShellSession.moved] using hlease
    · simp [leaseCheck, ShellSession.moved]
  · simp only [lifetimeCheck, Bool.and_eq_true] at hlifetime ⊢
    obtain ⟨⟨hexpiries, -⟩, -⟩ := hlifetime
    refine ⟨⟨hexpiries, ?_⟩, ?_⟩
    · rcases hnext with rfl | rfl <;> simp [ShellSession.moved]
    · rcases hnext with rfl | rfl <;> simp [ShellSession.moved]
  · rcases hnext with rfl | rfl
    · exact herror
    · exact herror

theorem moved_guarded {now : Timestamp} {revision : String} :
    Guarded r (r.moved now p revision next) where
  sessionId := rfl
  browserSessionId := rfl
  actorId := rfl
  template := rfl
  origin := rfl
  release := rfl
  generation := le_refl _
  fencingEpoch := le_refl _
  runtimeUid huid _ := by
    obtain ⟨uid, hr⟩ := Option.ne_none_iff_exists'.mp huid
    simp [ShellSession.moved, hr]

/-- A transition towards the end of a session, made by the holder of its lease under the
revision of its actor. -/
structure Closing (C : ShellCrypto) (t : Clock) (db : Shell) (p : TransitionArgs)
    (r : ShellSession) (revision : String) (next : Observed) (code : String) : Prop where
  session : db.sessions.lookup p.fence.sessionId = some r
  worker : p.fence.worker = r.leaseOwner
  generation : p.fence.generation = some r.generation
  fencingEpoch : p.fence.fencingEpoch = some r.fencingEpoch
  actorId : p.actorId = some r.actorId
  expectedState : p.expectedState = some r.observedState.text
  nextState : p.nextState = some next.text
  permissionRevision : p.permissionRevision = some revision
  runtimeUid : p.runtimeUid = r.runtimeUid
  runtimeResourceVersion : p.runtimeResourceVersion = none
  reasonCode : p.reasonCode = some code
  current : currentShellPermissionRevision C db.site (some r.actorId) = .ok revision
  lease : ∀ expiry, r.leaseExpiresAt = some expiry → t.start < expiry
  ending : next = .terminating ∨ next = .terminated
  valid : validTransition (some r.observedState.text) (some next.text) = some true
  format : reasonCodeFormat code = true

theorem Closing.admitted {revision : String}
    (h : Closing C t db p r revision next code) : transitionRefused t.start r p ≠ some true := by
  rw [transitionRefused, Ne, Cond.any_eq_true]
  rintro ⟨c, hc, hrefused⟩
  simp only [fenceLost, List.cons_append, List.nil_append, List.mem_cons, List.not_mem_nil,
    or_false] at hc
  rcases hc with rfl | rfl | rfl | rfl | rfl | rfl
  · exact ne_self_passed _ (h.actorId ▸ hrefused)
  · exact ne_self_passed _ (h.worker ▸ hrefused)
  · exact ne_self_passed _ (h.generation ▸ hrefused)
  · exact ne_self_passed _ (h.fencingEpoch ▸ hrefused)
  · rw [le_eq_true] at hrefused
    obtain ⟨expiry, now, hexpiry, hnow, hpast⟩ := hrefused
    cases hnow
    exact absurd hpast (not_le.mpr (h.lease expiry hexpiry))
  · exact ne_self_passed _ (h.expectedState ▸ hrefused)

theorem Closing.commits {revision : String}
    (h : Closing C t db p r revision next code) :
    ∃ sessions events,
      transitionShellSession C t p db =
        .ok ({ db with sessions := sessions, events := events }, r.moved t.start p revision next) ∧
      sessions.lookup p.fence.sessionId = some (r.moved t.start p revision next) := by
  obtain ⟨hr, hid⟩ := lookup_mem h.session
  obtain ⟨a, hactor, hrevision⟩ := currentShellPermissionRevision_eq_ok.mp h.current
  have hauthority : assertShellAuthority C db p.actorId p.permissionRevision false = .ok () := by
    refine assertShellAuthority_eq_ok.mpr ⟨⟨a, ?_, ?_⟩, fun hb => by cases hb⟩
    · rw [h.actorId, hactor]
    · rw [h.permissionRevision, hrevision]
  have hguard : Guarded r (r.moved t.start p revision next) := moved_guarded
  obtain ⟨sessions, hupdate, hlookup⟩ := updateSession_commits hr hguard (fun _ => rfl)
    (moved_checked (db.sessions.checked r hr)
      (hrevision ▸ permissionRevisionOf_format C db.site a) h.ending h.runtimeUid
      h.runtimeResourceVersion h.generation)
  rw [← hid] at hlookup
  have hthere : ({ db with sessions := sessions } : Shell).sessions.lookup p.fence.sessionId =
      some (r.moved t.start p revision next) := hlookup
  have hbound : Cond.all [isNotNull r.runtimeUid, isNotNull p.runtimeUid,
      ne r.runtimeUid p.runtimeUid] ≠ some true := by
    rw [Ne, Cond.all_eq_true, h.runtimeUid]
    intro hall
    exact ne_self_passed _ (hall (ne r.runtimeUid r.runtimeUid) (by simp))
  have hready : eq p.nextState (some "Ready") ≠ some true := by
    rw [h.nextState]
    rcases h.ending with rfl | rfl <;> decide
  have hlate : notIn p.nextState ["Terminating", "Terminated"] ≠ some true := by
    rw [h.nextState]
    rcases h.ending with rfl | rfl <;> decide
  have hvalid : Cond.not (validTransition p.expectedState p.nextState) ≠ some true := by
    rw [h.expectedState, h.nextState, h.valid]
    decide
  have hnext : p.nextState.bind Observed.ofText = some next := by
    rw [h.nextState, Option.bind_some, Observed.ofText_text]
  obtain ⟨events, happend⟩ : ∃ events, Shell.append { db with sessions := sessions } t.now
      p.fence.sessionId (transitionEvent next) (if next = .failed then .failed else .succeeded)
      (some code) = .ok { db with sessions := sessions, events := events } :=
    append_commits hthere h.format
  refine ⟨sessions, events, ?_, hlookup⟩
  rw [transitionShellSession, bind_of_ok hauthority, bind_of_ok (orRaise_eq_ok.mpr h.session),
    bind_of_ok ((raiseIf_eq_ok (u := ())).mpr h.admitted),
    bind_of_ok ((raiseIf_eq_ok (u := ())).mpr fun hc => hlate ((Cond.and_eq_true _ _).mp hc).2),
    bind_of_ok ((raiseIf_eq_ok (u := ())).mpr hvalid),
    bind_of_ok ((raiseIf_eq_ok (u := ())).mpr fun hc => hready ((Cond.and_eq_true _ _).mp hc).1),
    bind_of_ok ((raiseIf_eq_ok (u := ())).mpr fun hc => hready ((Cond.and_eq_true _ _).mp hc).1),
    bind_of_ok ((raiseIf_eq_ok (u := ())).mpr hbound),
    bind_of_ok (notNull_eq_ok.mpr h.permissionRevision),
    bind_of_ok (orRaise_eq_ok.mpr hnext), bind_of_ok hupdate, h.reasonCode, bind_of_ok happend]
  rfl

theorem transition_runtime {out : Shell × ShellSession}
    (h : transitionShellSession C t p db = .ok out)
    (hr : db.sessions.lookup p.fence.sessionId = some r) {u v : String}
    (hu : r.runtimeUid = some u) (hv : p.runtimeUid = some v) : u = v := by
  simp only [transitionShellSession, bind_eq_ok, orRaise_eq_ok, raiseIf_eq_ok] at h
  obtain ⟨_, -, x, hx, _, -, _, -, _, -, _, -, _, -, _, hbound, -⟩ := h
  obtain rfl : x = r := Option.some.inj (hx.symm.trans hr)
  by_contra hne
  refine hbound ((Cond.all_eq_true _).mpr fun c hc => ?_)
  simp only [List.mem_cons, List.not_mem_nil, or_false] at hc
  rcases hc with rfl | rfl | rfl
  · simp [hu]
  · simp [hv]
  · simp [hu, hv, hne]

/-! ## A process that is alone -/

/-- Nobody else writes, and every request is answered before the lease runs out. -/
def alone (expiry : Timestamp) : Discipline Stamp Request World where
  valid _ := True
  rely w w' := w' = w
  guarantee _ _ := True
  allowed e _ _ := e.fault = .none ∧ e.clock.start < expiry

variable {expiry : Timestamp} {w : World} {config : Config}

theorem safe_request_alone (q : Request) {post : Except Thrown q.Result → World → Prop} :
    Safe (answer C) (alone expiry) post (request q) w ↔
      ∀ e : Stamp, e.fault = .none → e.clock.start < expiry →
        post (serve C e q w).1 (serve C e q w).2 := by
  have hanswer : ∀ e : Stamp, e.fault = .none → answer C e q w = serve C e q w := by
    intro e he
    rw [answer, he]
  rw [request, System.safe_await]
  constructor
  · intro h e hfault hlease
    rw [← hanswer e hfault]
    exact (h e w trivial rfl ⟨hfault, hlease⟩).2.2
  · rintro h e _ - rfl ⟨hfault, hlease⟩
    rw [hanswer e hfault]
    exact ⟨trivial, trivial, h e hfault hlease⟩

/-- The client goes on where the revision is the one it expects, and stops elsewhere. -/
theorem currentPermissionRevision_alone {actorId : Uuid} {expected : String} :
    Safe (answer C) (alone expiry)
      (fun r w' => w' = w ∧
        (currentShellPermissionRevision C w.shell.site (some actorId) = .ok expected ∧
            r = .ok expected ∨
          currentShellPermissionRevision C w.shell.site (some actorId) ≠ .ok expected ∧
            ∃ e, r = .error e))
      (currentPermissionRevision actorId (some expected)) w := by
  have hread : Safe (answer C) (alone expiry) (fun r w' => w' = w ∧
      r = (currentShellPermissionRevision C w.shell.site (some actorId)).mapError .sql)
      (request (.currentShellPermissionRevision actorId)) w :=
    (safe_request_alone (.currentShellPermissionRevision actorId)).mpr fun _ _ _ => ⟨rfl, rfl⟩
  refine hread.bind ?_ ?_
  · rintro revision w' ⟨hw, hr⟩
    rw [hw]
    cases hcurrent : currentShellPermissionRevision C w.shell.site (some actorId) with
    | error e =>
        rw [hcurrent] at hr
        cases hr
    | ok current =>
        rw [hcurrent] at hr
        cases hr
        obtain ⟨a, -, rfl⟩ := currentShellPermissionRevision_eq_ok.mp hcurrent
        rw [exactRevision_permissionRevisionOf, if_neg (by decide)]
        split
        next hne =>
          refine System.safe_throw.mpr ⟨rfl, .inr ⟨fun heq => ?_, _, rfl⟩⟩
          cases heq
          exact hne.2 rfl
        next heq =>
          rw [not_and, not_not] at heq
          cases heq (Option.some_ne_none _)
          exact System.safe_pure.mpr ⟨rfl, .inl ⟨rfl, rfl⟩⟩
  · rintro e w' ⟨hw, hr⟩
    refine ⟨hw, .inr ⟨fun hcurrent => ?_, e, rfl⟩⟩
    rw [hcurrent] at hr
    cases hr

/-! ## Teardown of a claimed session -/

structure Held (expiry : Timestamp) (config : Config) (w : World) (row : ShellSession) : Prop where
  session : w.shell.sessions.lookup (some row.sessionId) = some row
  owner : row.leaseOwner = some (Js.trim config.worker)
  lease : row.leaseExpiresAt = some expiry
  worker : Js.trim config.worker ≠ ""

/-- The row of a session goes through the client as it is, and under the revision of its
actor. -/
structure Steady (C : ShellCrypto) (site : ConsoleIdentity.Site) (row : ShellSession) : Prop where
  authority : currentShellPermissionRevision C site (some row.actorId) = .ok row.permissionRevision
  runtimeUid : ∀ uid, row.runtimeUid = some uid → Js.trim uid = uid
  generation : row.generation ≤ maxSafeInteger
  fencingEpoch : row.fencingEpoch ≤ maxSafeInteger

/-- What the CHECK constraints say of the columns the client sends. -/
theorem row_checked (h : db.sessions.lookup (some row.sessionId) = some row) :
    1 ≤ row.generation ∧ 1 ≤ row.fencingEpoch ∧ ∀ uid, row.runtimeUid = some uid → uid ≠ "" := by
  have hchecked := db.sessions.checked row (lookup_mem h).1
  simp only [shellSessionSchema, runtimeCheck, positive, Authority.between, Bool.and_eq_true,
    decide_eq_true_eq] at hchecked
  obtain ⟨⟨⟨⟨⟨⟨⟨-, hgeneration⟩, hepoch⟩, -⟩, hruntime⟩, -⟩, -⟩, -⟩ := hchecked
  refine ⟨hgeneration.1, hepoch.1, ?_⟩
  rintro uid huid rfl
  have hlength := hruntime.1.1.1.1.1.1.1.1
  rw [huid] at hlength
  exact absurd hlength (by decide)

def endingArgs (config : Config) (row : ShellSession) (next : Observed) (code : String) :
    TransitionArgs where
  fence := ⟨some row.sessionId, some (Js.trim config.worker), some row.generation,
    some row.fencingEpoch⟩
  actorId := some row.actorId
  expectedState := some row.observedState.text
  nextState := some next.text
  permissionRevision := some row.permissionRevision
  runtimeUid := row.runtimeUid
  runtimeResourceVersion := none
  reasonCode := some code

theorem Steady.args (h : Steady C w.shell.site row)
    (hheld : Held expiry config w row) :
    (endingInput (Base.of config row) row row.observedState next code).args
      row.permissionRevision = .ok (endingArgs config row next code) := by
  obtain ⟨hgeneration, hepoch, huid⟩ := row_checked hheld.session
  have hfence : (endingInput (Base.of config row) row row.observedState next code).fence =
      .ok (endingArgs config row next code).fence :=
    Base.fence_eq_ok.mpr ⟨rfl, hheld.worker, ⟨hgeneration, h.generation⟩, hepoch, h.fencingEpoch⟩
  have hruntime : optional (endingInput (Base.of config row) row row.observedState next
      code).runtimeUid "runtimeUid" = .ok row.runtimeUid := by
    show optional row.runtimeUid "runtimeUid" = .ok row.runtimeUid
    cases hrow : row.runtimeUid with
    | none => rfl
    | some uid =>
        have htrim := h.runtimeUid uid hrow
        refine (optional_eq_ok (huid uid hrow)).mpr ⟨by rw [htrim], ?_⟩
        rw [htrim]
        exact huid uid hrow
  rw [TransitionInput.args, bind_of_ok hfence, bind_of_ok hruntime]
  rfl

structure Ended (row row' : ShellSession) (next : Observed) : Prop where
  base : ∀ config, Base.of config row' = Base.of config row
  runtimeUid : row'.runtimeUid = row.runtimeUid
  observedState : row'.observedState = next
  owner : next = .terminating → row'.leaseOwner = row.leaseOwner
  lease : next = .terminating → row'.leaseExpiresAt = row.leaseExpiresAt

theorem Steady.of_ended {site : ConsoleIdentity.Site} {row' : ShellSession}
    (h : Steady C site row) (hended : Ended row row' next) : Steady C site row' := by
  have hbase := hended.base ⟨"", "", id⟩
  have hactor : row'.actorId = row.actorId := congrArg Base.actorId hbase
  have hrevision : row'.permissionRevision = row.permissionRevision :=
    congrArg Base.permissionRevision hbase
  have hgeneration : row'.generation = row.generation := congrArg Base.generation hbase
  have hepoch : row'.fencingEpoch = row.fencingEpoch := congrArg Base.fencingEpoch hbase
  refine ⟨?_, ?_, ?_, ?_⟩
  · rw [hactor, hrevision]
    exact h.authority
  · rw [hended.runtimeUid]
    exact h.runtimeUid
  · rw [hgeneration]
    exact h.generation
  · rw [hepoch]
    exact h.fencingEpoch

/-- A transition of a steady row towards the end of its session goes through. -/
theorem ending_alone (hheld : Held expiry config w row)
    (hsteady : Steady C w.shell.site row) (hending : next = .terminating ∨ next = .terminated)
    (hvalid : validTransition (some row.observedState.text) (some next.text) = some true)
    (hformat : reasonCodeFormat code = true) :
    Safe (answer C) (alone expiry)
      (fun r w' => ∃ row', r = .ok row' ∧ w'.cluster = w.cluster ∧ w'.shell.site = w.shell.site ∧
        w'.shell.sessions.lookup (some row.sessionId) = some row' ∧ Ended row row' next)
      (transitionSession (endingInput (Base.of config row) row row.observedState next code)) w := by
  refine currentPermissionRevision_alone.bind ?_ fun e w' hstop => ?_
  swap
  · rcases hstop.2 with ⟨-, hr⟩ | ⟨hother, -⟩
    · cases hr
    · exact absurd hsteady.authority hother
  rintro revision w' ⟨hw, hr⟩
  rw [hw]
  obtain rfl : revision = row.permissionRevision := by
    rcases hr with ⟨-, hr⟩ | ⟨-, e, hr⟩
    · cases hr
      rfl
    · cases hr
  rw [hsteady.args hheld, System.lift_ok_bind]
  refine (safe_request_alone (.transitionShellSession (endingArgs config row next code))).mpr
    fun e _ hlease => ?_
  have hclosing : Closing C e.clock w.shell (endingArgs config row next code) row
      row.permissionRevision next code := {
    session := hheld.session
    worker := hheld.owner.symm
    generation := rfl
    fencingEpoch := rfl
    actorId := rfl
    expectedState := rfl
    nextState := rfl
    permissionRevision := rfl
    runtimeUid := rfl
    runtimeResourceVersion := rfl
    reasonCode := rfl
    current := hsteady.authority
    lease := fun x hx => by
      rw [hheld.lease] at hx
      cases hx
      exact hlease
    ending := hending
    valid := hvalid
    format := hformat }
  obtain ⟨sessions, events, hcommit, hlookup⟩ := hclosing.commits
  have hserve : serve C e (.transitionShellSession (endingArgs config row next code)) w =
      (.ok (row.moved e.clock.start (endingArgs config row next code) row.permissionRevision next),
        { w with shell := { w.shell with sessions := sessions, events := events } }) := by
    rw [serve, hcommit]
    rfl
  rw [hserve]
  refine ⟨_, rfl, rfl, rfl, hlookup, fun _ => rfl, ?_, rfl, ?_, ?_⟩
  · simp [ShellSession.moved, endingArgs]
  · rintro rfl
    rfl
  · rintro rfl
    rfl

theorem ending_stalls (hheld : Held expiry config w row)
    (hnot : ¬ Steady C w.shell.site row) :
    Safe (answer C) (alone expiry) (fun r w' => (∃ e, r = .error e) ∧ w' = w)
      (transitionSession (endingInput (Base.of config row) row row.observedState next code)) w := by
  obtain ⟨-, -, huid⟩ := row_checked hheld.session
  refine currentPermissionRevision_alone.bind ?_ fun e w' hstop => ⟨⟨e, rfl⟩, hstop.1⟩
  rintro revision w' ⟨hw, hr⟩
  rw [hw]
  obtain ⟨hcurrent, hr⟩ : currentShellPermissionRevision C w.shell.site (some row.actorId) =
      .ok row.permissionRevision ∧ revision = row.permissionRevision := by
    rcases hr with ⟨hcurrent, hr⟩ | ⟨-, e, hr⟩
    · cases hr
      exact ⟨hcurrent, rfl⟩
    · cases hr
  subst hr
  cases hargs : (endingInput (Base.of config row) row row.observedState next code).args
      row.permissionRevision with
  | error e => exact System.safe_throw.mpr ⟨⟨e, rfl⟩, rfl⟩
  | ok args =>
      rw [System.lift_ok_bind]
      refine (safe_request_alone (.transitionShellSession args)).mpr fun e _ _ => ?_
      cases hcall : transitionShellSession C e.clock args w.shell with
      | error x =>
          rw [serve, hcall]
          exact ⟨⟨_, rfl⟩, rfl⟩
      | ok out =>
          -- what the client sent and the database compared makes the row steady
          simp only [TransitionInput.args, bind_eq_ok, pure_eq_ok] at hargs
          obtain ⟨fence, hfence, sent, hsent, _, -, rfl⟩ := hargs
          obtain ⟨rfl, -, hgeneration, hepoch⟩ := Base.fence_eq_ok.mp hfence
          refine absurd ⟨hcurrent, fun uid hrow => ?_, hgeneration.2, hepoch.2⟩ hnot
          have hsent : optional row.runtimeUid "runtimeUid" = .ok sent := hsent
          rw [hrow, optional_eq_ok (huid uid hrow)] at hsent
          exact (transition_runtime hcall hheld.session hrow hsent.1).symm

theorem deletePod_alone {name uid : String}
    (hfree : ∀ p ∈ w.cluster.pods, p.name = name → p.uid.text = uid) :
    Safe (answer C) (alone expiry) (fun r w' => r = .ok () ∧ w'.shell = w.shell)
      (deletePod name uid) w := by
  have hcall : Safe (answer C) (alone expiry) (fun r w' =>
      (r = .ok () ∨ r = .error (.kubernetes 404)) ∧ w'.shell = w.shell)
      (request (.deletePod name uid)) w := by
    refine (safe_request_alone (.deletePod name uid)).mpr fun e _ _ => ?_
    cases hfind : w.cluster.find name with
    | none => simp [serve, Cluster.delete, hfind]
    | some p =>
        have hp := List.mem_of_find?_eq_some hfind
        have hname := List.find?_some hfind
        rw [decide_eq_true_eq] at hname
        simp [serve, Cluster.delete, hfind, hfree p hp hname]
  refine hcall.tryCatch ?_ ?_
  · rintro x w' ⟨-, hshell⟩
    exact ⟨rfl, hshell⟩
  · rintro e w' ⟨herror, hshell⟩
    rcases herror with h | h
    · cases h
    · cases h
      rw [if_pos (show (Thrown.kubernetes 404).status = some 404 from rfl)]
      exact System.safe_pure.mpr ⟨rfl, hshell⟩

theorem deleteRuntime_alone (hheld : Held expiry config w row)
    (hfree : ∀ uid, row.runtimeUid = some uid → ∀ p ∈ w.cluster.pods,
      p.name = shellPodName row.sessionId → p.uid.text = uid) :
    Safe (answer C) (alone expiry) (fun r w' => r = .ok () ∧ w'.shell = w.shell)
      (deleteRuntime row) w := by
  obtain ⟨-, -, huid⟩ := row_checked hheld.session
  unfold deleteRuntime
  cases hrow : row.runtimeUid with
  | none => exact System.safe_pure.mpr ⟨rfl, rfl⟩
  | some uid =>
      have hfilter : (some uid).filter (· ≠ "") = some uid := by simp [huid uid hrow]
      rw [hfilter]
      exact deletePod_alone (hfree uid hrow)

/-- No Pod but the recorded one has the name of the session's Pod. -/
def NameFree (c : Cluster) (row : ShellSession) : Prop :=
  ∀ uid, row.runtimeUid = some uid → ∀ p ∈ c.pods, p.name = shellPodName row.sessionId →
    p.uid.text = uid

def EndedIn (w : World) (k : Uuid) : Prop :=
  ∃ r, w.shell.sessions.lookup (some k) = some r ∧ r.observedState = .terminated

theorem teardownReconciled_format : reasonCodeFormat "TeardownReconciled" = true := by
  decide

theorem runtimeDeleted_format : reasonCodeFormat "RuntimeDeleted" = true := by decide

theorem closeRuntime_alone (hheld : Held expiry config w row)
    (hstate : row.observedState = .terminating) (hsteady : Steady C w.shell.site row)
    (hfree : NameFree w.cluster row) :
    Safe (answer C) (alone expiry) (fun _ w' => EndedIn w' row.sessionId)
      (closeRuntime (Base.of config row) row) w := by
  refine (deleteRuntime_alone hheld hfree).bind ?_ fun e w' hno => by cases hno.1
  rintro _ w' ⟨-, hshell⟩
  have hheld' : Held expiry config w' row := { hheld with session := hshell ▸ hheld.session }
  have hsteady' : Steady C w'.shell.site row := hshell ▸ hsteady
  have hvalid : validTransition (some row.observedState.text)
      (some Observed.terminated.text) = some true := by
    rw [hstate]
    decide
  have hmove := ending_alone hheld' hsteady' (.inr rfl) hvalid runtimeDeleted_format
  rw [hstate] at hmove
  refine hmove.bind ?_ ?_
  · rintro row' w'' ⟨_, hr, -, -, hlookup, hended⟩
    cases hr
    exact System.safe_pure.mpr ⟨row', hlookup, hended.observedState⟩
  · rintro e w'' ⟨_, hr, -⟩
    cases hr

theorem teardownRuntime_alone (hheld : Held expiry config w row)
    (hstate : row.observedState ≠ .terminated) (hsteady : Steady C w.shell.site row)
    (hfree : NameFree w.cluster row) :
    Safe (answer C) (alone expiry) (fun _ w' => EndedIn w' row.sessionId)
      (teardownRuntime (Base.of config row) row) w := by
  rw [teardownRuntime]
  by_cases hterminating : row.observedState = .terminating
  · rw [if_neg (not_not.mpr hterminating), System.pure_bind]
    exact closeRuntime_alone hheld hterminating hsteady hfree
  · rw [if_pos hterminating]
    have hvalid : validTransition (some row.observedState.text)
        (some Observed.terminating.text) = some true := by
      revert hstate hterminating
      cases row.observedState <;> decide
    refine (ending_alone hheld hsteady (.inl rfl) hvalid teardownReconciled_format).bind ?_ ?_
    · rintro row' w' ⟨_, hr, hcluster, hsite, hlookup, hended⟩
      cases hr
      have hbase := hended.base config
      have hid : row'.sessionId = row.sessionId := congrArg Base.sessionId hbase
      have hheld' : Held expiry config w' row' := {
        session := hid ▸ hlookup
        owner := (hended.owner rfl).trans hheld.owner
        lease := (hended.lease rfl).trans hheld.lease
        worker := hheld.worker }
      have hsteady' : Steady C w'.shell.site row' := hsite ▸ hsteady.of_ended hended
      have hfree' : NameFree w'.cluster row' := by
        intro uid huid p hp hname
        rw [hended.runtimeUid] at huid
        rw [hcluster] at hp
        exact hfree uid huid p hp (hid ▸ hname)
      have hclose := closeRuntime_alone hheld' hended.observedState hsteady' hfree'
      rw [hbase, hid] at hclose
      exact hclose
    · rintro e w' ⟨_, hr, -⟩
      cases hr

theorem teardownRuntime_stalls (hheld : Held expiry config w row)
    (hnot : ¬ Steady C w.shell.site row) (hfree : NameFree w.cluster row) :
    Safe (answer C) (alone expiry) (fun _ w' => w'.shell = w.shell)
      (teardownRuntime (Base.of config row) row) w := by
  rw [teardownRuntime]
  by_cases hterminating : row.observedState = .terminating
  · rw [if_neg (not_not.mpr hterminating), System.pure_bind]
    refine (deleteRuntime_alone hheld hfree).bind ?_ fun e w' hno => hno.2
    rintro _ w' ⟨-, hshell⟩
    have hheld' : Held expiry config w' row := { hheld with session := hshell ▸ hheld.session }
    have hnot' : ¬ Steady C w'.shell.site row := hshell ▸ hnot
    have hmove : Safe (answer C) (alone expiry) (fun r w'' => (∃ e, r = .error e) ∧ w'' = w')
        (transitionSession (endingInput (Base.of config row) row row.observedState .terminated
          "RuntimeDeleted")) w' := ending_stalls hheld' hnot'
    rw [hterminating] at hmove
    refine hmove.bind ?_ ?_
    · rintro row' w'' ⟨⟨e, hr⟩, -⟩
      cases hr
    · rintro e w'' ⟨-, hw⟩
      rw [hw, hshell]
  · rw [if_pos hterminating]
    refine (ending_stalls hheld hnot).bind ?_ ?_
    · rintro row' w' ⟨⟨e, hr⟩, -⟩
      cases hr
    · rintro e w' ⟨-, hw⟩
      rw [hw]

/-! ## Convergence -/

/-- A row that asks for the end of its session is torn down. -/
theorem reconcile_terminated {reclaimed : Bool} (h : row.desiredState = .terminated) :
    reconcile config row reclaimed = (do
      teardownRuntime (Base.of config row) row
      pure none) := by
  have hnot : row.desiredState ≠ .running := by
    rw [h]
    decide
  simp only [reconcile, if_neg hnot, System.pure_bind, Bool.false_eq_true, if_false, if_pos h]

theorem reconcile_exec {reclaimed : Bool} {stamps : Nat → Stamp} {P : World → Prop}
    (hdesired : row.desiredState = .terminated)
    (hstamps : ∀ n, (stamps n).fault = .none ∧ (stamps n).clock.start < expiry)
    (h : Safe (answer C) (alone expiry) (fun _ w' => P w')
      (teardownRuntime (Base.of config row) row) w) :
    P ((reconcile config row reclaimed).exec (answer C) stamps w).2 := by
  have hall : Safe (answer C) (alone expiry) (fun _ w' => P w')
      (reconcile config row reclaimed) w := by
    rw [reconcile_terminated hdesired]
    exact h.bind (fun _ _ hP => System.safe_pure.mpr hP) fun _ _ hP => hP
  exact hall.exec (fun _ => rfl) (fun n _ _ => hstamps n) trivial

theorem claimSessions_call {config : Config} {locked : List Uuid} {rows : List ShellSession}
    (h : claimSessions config t locked db = .ok (db', rows)) :
    claimShellSessions t (some (Js.trim config.worker)) (some 5) locked db = .ok (db', rows) := by
  simp only [claimSessions, bind_eq_ok, required_eq_ok] at h
  obtain ⟨worker, ⟨rfl, -⟩, h⟩ := h
  cases hcall : claimShellSessions t (some (Js.trim config.worker)) (some 5) locked db with
  | error e =>
      rw [hcall] at h
      cases h
  | ok out =>
      rw [hcall] at h
      cases h
      rfl

theorem claimSessions_row {locked : List Uuid} {rows : List ShellSession}
    (h : claimSessions config t locked db = .ok (db', rows)) (hrow : row ∈ rows) (c : Cluster) :
    Held (t.now + seconds 15) config ⟨db', c⟩ row ∧ row.observedState ≠ .terminated ∧
      db'.site = db.site := by
  simp only [claimSessions, bind_eq_ok, required_eq_ok] at h
  obtain ⟨worker, ⟨rfl, hworker⟩, h⟩ := h
  cases hcall : claimShellSessions t (some (Js.trim config.worker)) (some 5) locked db with
  | error e =>
      rw [hcall] at h
      cases h
  | ok out =>
      rw [hcall] at h
      cases h
      obtain ⟨-, -, hlookup, -⟩ := claim_epoch hcall row hrow
      obtain ⟨sessions, events, -, rfl, rfl⟩ := claim_eq_ok hcall
      obtain ⟨r, hr, rfl⟩ := List.mem_map.mp hrow
      have htaken := List.mem_of_mem_take hr
      rw [List.mem_insertionSort, List.mem_filter, Bool.and_eq_true, ShellSession.claimable,
        Bool.and_eq_true, decide_eq_true_eq] at htaken
      exact ⟨⟨hlookup, rfl, rfl, hworker⟩, htaken.2.1.1, rfl⟩

/-- A session that is to end and is claimed ends with its reconciliation, by a process that
is alone and answered in time, exactly when its row is steady. -/
theorem teardown_converges (C : ShellCrypto) (config : Config) (t : Clock) (locked : List Uuid)
    (db db' : Shell) (rows : List ShellSession) (row : ShellSession) (c : Cluster)
    (stamps : Nat → Stamp) (hclaim : claimSessions config t locked db = .ok (db', rows))
    (hrow : row ∈ rows) (hdesired : row.desiredState = .terminated) (hfree : NameFree c row)
    (hstamps : ∀ n, (stamps n).fault = .none ∧ (stamps n).clock.start < t.now + seconds 15) :
    EndedIn ((reconcile config row true).exec (answer C) stamps ⟨db', c⟩).2 row.sessionId ↔
      Steady C db.site row := by
  obtain ⟨hheld, hstate, hsite⟩ := claimSessions_row hclaim hrow c
  constructor
  · intro hended
    by_contra hnot
    have hshell : ((reconcile config row true).exec (answer C) stamps ⟨db', c⟩).2.shell = db' :=
      reconcile_exec hdesired hstamps (teardownRuntime_stalls hheld (hsite.symm ▸ hnot) hfree)
    obtain ⟨r, hr, hterminated⟩ := hended
    rw [hshell, hheld.session] at hr
    cases hr
    exact hstate hterminated
  · intro hsteady
    exact reconcile_exec hdesired hstamps
      (teardownRuntime_alone hheld hstate (hsite.symm ▸ hsteady) hfree)

/-! ## A revision that changes after the teardown -/

namespace Demo

def reconciler : Config where
  worker := "reconciler-1"
  runtimeImage := String.append "ghcr.io/opensphere-platform/opensphere-os-shell-runtime@"
    migration.migrationSetDigest
  parse := id

/-- An answer at once, some seconds after noon. -/
def stamp (k : Nat) : Stamp where
  clock := clock k
  now := Authority.Demo.noon + seconds k
  uid := ⟨k⟩
  resourceVersion := "1"
  fault := .none

def pod : Pod := ⟨⟨⟨9⟩, 1, 2⟩, ⟨77⟩, "1"⟩

def podCluster : Cluster where
  pods := [pod]
  created := [pod]
  known _ h := h
  names := List.pairwise_singleton ..
  uids := List.pairwise_singleton ..

/-- Alice ends session 9, which has its Pod. -/
def teardown (revision : Option String) : List Action := [
  .call (clock 8) (.requestShellSessionTeardown { ending with permissionRevision := revision })]

def ended : List Action := [setup, create 4 9, claim 5,
  .call (clock 6) (.transitionShellSession { provisioning fence with
    runtimeUid := some pod.uid.text })] ++ teardown revision

def claimedRow (db : Shell) : Option ShellSession :=
  (claimSessions reconciler (clock 21) [] db).toOption.bind fun out => out.2.head?

theorem claimedRow_eq_some {db : Shell} {row : ShellSession} (h : claimedRow db = some row) :
    ∃ db' rows, claimSessions reconciler (clock 21) [] db = .ok (db', rows) ∧ row ∈ rows := by
  unfold claimedRow at h
  cases hcall : claimSessions reconciler (clock 21) [] db with
  | error e => simp [hcall, Except.toOption] at h
  | ok out =>
      rw [hcall] at h
      exact ⟨out.1, out.2, rfl, List.mem_of_head? h⟩

end Demo

/-- A session with a Pod ends when its actor keeps the revision it was ended under. -/
theorem demo_converges :
    ∃ db' rows row, claimSessions Demo.reconciler (Demo.clock 21) [] (Demo.after Demo.ended) =
        .ok (db', rows) ∧ row ∈ rows ∧ row.desiredState = .terminated ∧
      row.runtimeUid = some Demo.pod.uid.text ∧
      EndedIn ((reconcile Demo.reconciler row true).exec (answer Demo.crypto)
        (fun _ => Demo.stamp 22) ⟨db', Demo.podCluster⟩).2 row.sessionId := by
  have hrun : ((Demo.claimedRow (Demo.after Demo.ended)).any fun row =>
      decide (row.desiredState = .terminated) &&
      decide (row.runtimeUid = some Demo.pod.uid.text) &&
      decide ((currentShellPermissionRevision Demo.crypto (Demo.after Demo.ended).site
        (some row.actorId)).toOption = some row.permissionRevision) &&
      decide (Js.trim Demo.pod.uid.text = Demo.pod.uid.text) &&
      decide (row.generation ≤ maxSafeInteger) && decide (row.fencingEpoch ≤ maxSafeInteger)) =
      true := by
    rw [show Demo.after Demo.ended = _ from Demo.after_setup Demo.ended.tail]
    decide +kernel
  obtain ⟨row, hclaimed, htest⟩ := (Option.any_eq_true _ _).mp hrun
  simp only [Bool.and_eq_true, decide_eq_true_eq] at htest
  obtain ⟨⟨⟨⟨⟨hdesired, huid⟩, hrevision⟩, htrim⟩, hgeneration⟩, hepoch⟩ := htest
  obtain ⟨db', rows, hclaim, hrow⟩ := Demo.claimedRow_eq_some hclaimed
  refine ⟨db', rows, row, hclaim, hrow, hdesired, huid, ?_⟩
  refine (teardown_converges Demo.crypto Demo.reconciler _ _ _ db' rows row Demo.podCluster _ hclaim
    hrow hdesired ?_ fun _ => ⟨rfl, by decide⟩).mpr ⟨?_, ?_, hgeneration, hepoch⟩
  · intro uid hrecorded p hp _
    rw [huid] at hrecorded
    cases hrecorded
    rw [List.mem_singleton.mp hp]
  · cases hcurrent : currentShellPermissionRevision Demo.crypto (Demo.after Demo.ended).site
      (some row.actorId) with
    | error e =>
        rw [hcurrent] at hrevision
        cases hrevision
    | ok current =>
        rw [hcurrent] at hrevision
        cases hrevision
        rfl
  · intro uid hrecorded
    rw [huid] at hrecorded
    cases hrecorded
    exact htrim

namespace Demo

/-- A hash that tells revisions apart. -/
def summing : ShellCrypto where
  digest := Authority.Demo.digest
  sha256 t := List.replicate 32 (UInt8.ofNat ((chars t).foldl (fun n c => n + c.toNat) 0))
  octets _ := List.length_replicate

/-- Alice's revision when she opens session 9. -/
def summed : Option String :=
  (currentShellPermissionRevision summing ConsoleIdentity.Demo.loggedIn
    (some Authority.Demo.alice)).toOption

/-- Alice ends session 9, and then recovers her password. -/
def recovered : List Action :=
  [setup, .call (clock 4) (.createShellSession { creation 9 with permissionRevision := summed })] ++
    teardown summed ++
    [.identity (.call (Authority.Demo.second 9)
      (.revokeAfterPasswordRecovery (some Authority.Demo.alice) (some "correlation")))]

def afterRecovery : Shell :=
  System.run (perform summing) recovered
    (Shell.installed ConsoleIdentity.Demo.loggedIn Authority.Demo.noon migration)

theorem afterRecovery_eq : afterRecovery = System.run (perform summing) recovered.tail enabled := by
  change System.run (perform summing) (setup :: recovered.tail) _ = _
  rw [← setup_eq summing, System.run]

/-- The first row that is claimed passes a test, and its session another one after the row was
reconciled. -/
def reconciles (db : Shell) (before after : ShellSession → Bool) : Bool :=
  (claimSessions reconciler (clock 21) [] db).toOption.any fun out =>
    out.2.head?.any fun row => before row &&
      (((reconcile reconciler row true).exec (answer summing) (fun _ => stamp 22)
        ⟨out.1, .empty⟩).2.shell.sessions.lookup (some row.sessionId)).all after

theorem reconciles_eq_true {db : Shell} {before after : ShellSession → Bool}
    (h : reconciles db before after = true) :
    ∃ db' rows row, claimSessions reconciler (clock 21) [] db = .ok (db', rows) ∧ row ∈ rows ∧
      before row = true ∧ ∀ r, ((reconcile reconciler row true).exec (answer summing)
        (fun _ => stamp 22) ⟨db', .empty⟩).2.shell.sessions.lookup (some row.sessionId) = some r →
      after r = true := by
  unfold reconciles at h
  cases hcall : claimSessions reconciler (clock 21) [] db with
  | error e => simp [hcall, Except.toOption] at h
  | ok out =>
      simp only [hcall, Except.toOption, Option.any_some] at h
      obtain ⟨row, hhead, htest⟩ := (Option.any_eq_true _ _).mp h
      rw [Bool.and_eq_true, Option.all_eq_true] at htest
      exact ⟨out.1, out.2, row, rfl, List.mem_of_head? hhead, htest.1, htest.2⟩

end Demo

/-- A session without a Pod does not end when its actor was revised after its teardown was
asked for. -/
theorem teardown_after_recovery :
    Reachable Demo.summing Demo.afterRecovery ∧
    ∃ db' rows row, claimSessions Demo.reconciler (Demo.clock 21) [] Demo.afterRecovery =
        .ok (db', rows) ∧ row ∈ rows ∧ row.desiredState = .terminated ∧ NameFree .empty row ∧
      ¬ EndedIn ((reconcile Demo.reconciler row true).exec (answer Demo.summing)
        (fun _ => Demo.stamp 22) ⟨db', .empty⟩).2 row.sessionId := by
  have hrun : Demo.reconciles Demo.afterRecovery
      (fun row => decide (row.desiredState = .terminated))
      (fun r => decide (r.observedState ≠ .terminated)) = true := by
    rw [Demo.afterRecovery_eq]
    decide +kernel
  obtain ⟨db', rows, row, hclaim, hrow, hdesired, hafter⟩ := Demo.reconciles_eq_true hrun
  refine ⟨⟨_, _, _, Demo.recovered, rfl⟩, db', rows, row, hclaim, hrow,
    of_decide_eq_true hdesired, fun _ _ p hp => absurd hp List.not_mem_nil, ?_⟩
  rintro ⟨r, hr, hterminated⟩
  exact of_decide_eq_true (hafter r hr) hterminated

end ConsoleShell
