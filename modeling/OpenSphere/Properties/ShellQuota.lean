import OpenSphere.Properties.ShellStates

/-!
# Quotas and idle sessions

A session counts against the quotas while it is wanted, has not ended and both
its expiries lie ahead.  It stops counting without any write, so a write that
moves an expiry forward can bring it back.  Only `touch_shell_session_activity`
moves one, and it does not ask whether the session was idle.  In a run where
every touch that passes its checks finds the idle expiry still ahead, the quotas
hold at every time, and a session that was idle stays idle.
-/

open Sql

namespace ConsoleShell

variable {C : ShellCrypto} {t : Clock} {db db' : Shell} {c : Call} {r r' : ShellSession}

def ShellSession.attachable (now : Timestamp) (r : ShellSession) : Bool :=
  decide (r.desiredState = .running) && decide (r.observedState = .ready) &&
  decide (now < r.idleExpiresAt) && decide (now < r.absoluteExpiresAt)

def Action.now : Action → Option Timestamp
  | .call t _ => some t.now
  | .identity a => a.now
  | .migrate _ => none

/-- The clock never runs backwards. -/
def Ticking (as : List Action) : Prop := (as.filterMap Action.now).Pairwise (· ≤ ·)

instance (as : List Action) : Decidable (Ticking as) :=
  inferInstanceAs (Decidable (List.Pairwise _ _))

/-- A touch that passes the checks of the function finds the idle expiry of the session
still ahead. -/
def TouchesActive (C : ShellCrypto) (a : Action) (db : Shell) : Prop :=
  ∀ t b r browser, a = .call t (.touchShellSessionActivity b) → db.control.enabled = true →
    assertShellAuthority C db b.actorId b.permissionRevision true = .ok () →
    db.sessions.lookup b.sessionId = some r → db.browserOf b = some browser →
    touchRefused t.start r browser b ≠ some true → t.now < r.idleExpiresAt

/-! ## One step -/

/-- A change of a session whose idle expiry lies ahead does not make it count. -/
theorem Change.counts (h : Change C t db c r r')
    (htouch : ∀ b, c = .touchShellSessionActivity b → t.now < r.idleExpiresAt)
    (hcounts : r'.counts t.now = true) : r.counts t.now = true := by
  simp only [ShellSession.counts, Bool.and_eq_true, decide_eq_true_eq] at hcounts ⊢
  obtain ⟨⟨⟨hdesired, hobserved⟩, hidle⟩, habsolute⟩ := hcounts
  have hlater := h.later
  cases h with
  | teardown => cases hdesired
  | revoked => cases hdesired
  | disabled => cases hdesired
  | renewed =>
      refine ⟨⟨⟨?_, hobserved⟩, hidle⟩, habsolute⟩
      simp only [Shell.renewed] at hdesired
      split at hdesired
      · cases hdesired
      · exact hdesired
  | reprojected =>
      exact ⟨⟨⟨hdesired, fun hended => hobserved (hlater.observed hended)⟩, hidle⟩, habsolute⟩
  | moved =>
      refine ⟨⟨⟨?_, fun hended => hobserved (hlater.observed hended)⟩, hidle⟩, habsolute⟩
      simp only [ShellSession.moved] at hdesired
      split at hdesired
      · cases hdesired
      · exact hdesired
  | @touched b r browser named =>
      exact ⟨⟨⟨hdesired, hobserved⟩, htouch b rfl⟩, habsolute⟩
  | _ => exact ⟨⟨⟨hdesired, hobserved⟩, hidle⟩, habsolute⟩

theorem Change.actorId (h : Change C t db c r r') : r'.actorId = r.actorId := by
  cases h <;> rfl

theorem Change.idle (h : Change C t db c r r') (htouch : ∀ b, c ≠ .touchShellSessionActivity b) :
    r'.idleExpiresAt = r.idleExpiresAt := by
  cases h with
  | touched => exact absurd rfl (htouch _)
  | _ => rfl

theorem Change.touching (h : Change C t db c r r') (hr : r ∈ db.sessions.rows)
    (hactive : TouchesActive C (.call t c) db) :
    ∀ b, c = .touchShellSessionActivity b → t.now < r.idleExpiresAt := by
  rintro b rfl
  cases h with
  | touched named enabled authority current admitted =>
      exact hactive t b r _ rfl enabled authority (Table.lookup_eq_some.mpr ⟨hr, named⟩) current
        admitted
  | disabled switch => cases switch

/-- Sessions stop counting as time goes by. -/
theorem active_antitone (db : Shell) (p : ShellSession → Bool) {t t' : Timestamp} (h : t ≤ t') :
    db.active t' p ≤ db.active t p := by
  refine length_filter_le (R := Eq) (List.forall₂_same.mpr fun _ _ => rfl) ?_
  rintro x _ rfl hx
  simp only [ShellSession.counts, Bool.and_eq_true, decide_eq_true_eq] at hx ⊢
  obtain ⟨hp, ⟨hstate, hidle⟩, habsolute⟩ := hx
  exact ⟨hp, ⟨hstate, lt_of_le_of_lt h hidle⟩, lt_of_le_of_lt h habsolute⟩

structure Quotas (db : Shell) (now : Timestamp) : Prop where
  global : (db.active now fun _ => true) ≤ db.control.globalActiveLimit
  actor : ∀ u, (db.active now fun r => decide (r.actorId = u)) ≤ db.control.actorActiveLimit

theorem Quotas.mono {now later : Timestamp} (h : Quotas db now) (hle : now ≤ later) :
    Quotas db later where
  global := le_trans (by exact_mod_cast active_antitone db _ hle) h.global
  actor u := le_trans (by exact_mod_cast active_antitone db _ hle) (h.actor u)

theorem CallStep.limits (h : CallStep C t db c db') :
    db'.control.actorActiveLimit = db.control.actorActiveLimit ∧
      db'.control.globalActiveLimit = db.control.globalActiveLimit := by
  cases h.control with
  | kept hkept =>
      obtain ⟨drained, hrow⟩ := hkept
      rw [hrow]
      exact ⟨rfl, rfl⟩
  | on hon => exact ⟨hon.actorActiveLimit, hon.globalActiveLimit⟩
  | off hoff | draining hoff => exact ⟨hoff.actorActiveLimit, hoff.globalActiveLimit⟩
  | claimed hclaimed =>
      obtain ⟨drained, expiresAt, hrow⟩ := hclaimed.row
      rw [hrow]
      exact ⟨rfl, rfl⟩
  | completed _ hrow =>
      rw [hrow]
      exact ⟨rfl, rfl⟩

theorem active_le_of_changes {p : ShellSession → Bool} {sessions : Table shellSessionSchema}
    (h : List.Forall₂ (fun x y => y = x ∨ Change C t db c x y) db.sessions.rows sessions.rows)
    (hactive : TouchesActive C (.call t c) db)
    (hp : ∀ x y, Change C t db c x y → p y = true → p x = true) :
    (sessions.rows.filter fun r => p r && r.counts t.now).length ≤ db.active t.now p := by
  have hmem := (List.forall₂_and_left _ _).mpr ⟨fun x hx => hx, h⟩
  refine length_filter_le hmem ?_
  rintro x y ⟨hx, rfl | hchange⟩ hy
  · exact hy
  · simp only [Bool.and_eq_true] at hy ⊢
    exact ⟨hp x y hchange hy.1, hchange.counts (hchange.touching hx hactive) hy.2⟩

theorem active_insert {sessions : Table shellSessionSchema} {now : Timestamp}
    (h : db.sessions.insert r = .ok sessions) (p : ShellSession → Bool) :
    (sessions.rows.filter fun x => p x && x.counts now).length ≤
      db.active now p + if p r = true then 1 else 0 := by
  rw [Table.filter_insert h, List.length_append]
  refine Nat.add_le_add_left ?_ _
  by_cases hp : p r = true
  · rw [if_pos hp]
    split <;> simp
  · simp [hp]

theorem CallStep.quotas (h : CallStep C t db c db') (hquotas : Quotas db t.now)
    (hactive : TouchesActive C (.call t c) db) : Quotas db' t.now := by
  obtain ⟨hactor, hglobal⟩ := h.limits
  rcases h.sessions with hchanges | ⟨p, r, rfl, hcreated, hinsert⟩
  · refine ⟨?_, fun u => ?_⟩
    · rw [hglobal]
      refine le_trans ?_ hquotas.global
      exact_mod_cast active_le_of_changes (p := fun _ => true) hchanges hactive fun _ _ _ h => h
    · rw [hactor]
      refine le_trans ?_ (hquotas.actor u)
      exact_mod_cast active_le_of_changes hchanges hactive fun x y hchange hy => by
        simpa [hchange.actorId] using hy
  · -- the counts were taken at `v_now`, when at least as many sessions were counted
    obtain ⟨-, -, -, -, hpactor, -⟩ := newSession_row hcreated.row
    refine ⟨?_, fun u => ?_⟩
    · rw [hglobal]
      have hroom := hcreated.room
      have hbefore := active_antitone db (fun _ => true) t.order
      have hafter : db'.active t.now (fun _ => true) ≤ db.active t.now (fun _ => true) + 1 :=
        active_insert hinsert fun _ => true
      omega
    · rw [hactor]
      have hafter : db'.active t.now (fun x => decide (x.actorId = u)) ≤
          db.active t.now (fun x => decide (x.actorId = u)) +
            if decide (r.actorId = u) = true then 1 else 0 :=
        active_insert hinsert fun x => decide (x.actorId = u)
      by_cases hu : r.actorId = u
      · subst hu
        have hroom := hcreated.actorRoom
        have hsame : (fun x : ShellSession => decide (some x.actorId = p.actorId)) =
            fun x => decide (x.actorId = r.actorId) := by
          funext x
          simp [hpactor]
        rw [hsame] at hroom
        have hbefore := active_antitone db (fun x => decide (x.actorId = r.actorId)) t.order
        simp only [decide_true, if_true] at hafter
        omega
      · have hquota := hquotas.actor u
        simp only [hu, decide_false, Bool.false_eq_true, if_false] at hafter
        omega

/-! ## Along a run -/

/-- The clocks of a run from its second action on are not before the first. -/
theorem Ticking.tail {a : Action} {as : List Action} (h : Ticking (a :: as)) :
    Ticking as ∧ ∀ x, a.now = some x → ∀ y ∈ as.filterMap Action.now, x ≤ y := by
  unfold Ticking at h
  cases ha : a.now with
  | none =>
      rw [List.filterMap_cons_none ha] at h
      exact ⟨h, fun x hx => by cases hx⟩
  | some x =>
      rw [List.filterMap_cons_some ha, List.pairwise_cons] at h
      exact ⟨h.2, fun y hy => Option.some.inj hy ▸ h.1⟩

theorem now_mem {a : Action} {as : List Action} {x : Timestamp} (h : a.now = some x) :
    x ∈ (a :: as).filterMap Action.now :=
  List.mem_filterMap.mpr ⟨a, List.mem_cons_self .., h⟩

theorem tail_mem {a : Action} {as : List Action} {x : Timestamp}
    (h : x ∈ as.filterMap Action.now) : x ∈ (a :: as).filterMap Action.now := by
  obtain ⟨b, hb, hx⟩ := List.mem_filterMap.mp h
  exact List.mem_filterMap.mpr ⟨b, List.mem_cons_of_mem _ hb, hx⟩

theorem run_quotas (C : ShellCrypto) (as : List Action) {db : Shell} {since now : Timestamp}
    (has : System.Along (perform C) (TouchesActive C) as db) (hclock : Ticking as)
    (hsince : ∀ x ∈ as.filterMap Action.now, since ≤ x)
    (hnow : ∀ x ∈ as.filterMap Action.now, x ≤ now) (hle : since ≤ now)
    (hquotas : Quotas db since) : Quotas (System.run (perform C) as db) now := by
  induction as generalizing db since with
  | nil => exact hquotas.mono hle
  | cons a as ih =>
      obtain ⟨hrest, hfirst⟩ := hclock.tail
      have hlast : ∀ x ∈ as.filterMap Action.now, x ≤ now := fun x hx => hnow x (tail_mem hx)
      rcases perform_step C a db with ⟨hsessions, -, hcontrol⟩ | ⟨t, c, rfl, -, hstep⟩
      · refine ih has.2 hrest (fun x hx => hsince x (tail_mem hx)) hlast hle ⟨?_, fun u => ?_⟩
        · rw [Shell.active, hsessions, hcontrol]
          exact hquotas.global
        · rw [Shell.active, hsessions, hcontrol]
          exact hquotas.actor u
      · have hthen : t.now ∈ (Action.call t c :: as).filterMap Action.now := now_mem rfl
        exact ih has.2 hrest (hfirst t.now rfl) hlast (hnow t.now hthen)
          (hstep.quotas (hquotas.mono (hsince t.now hthen)) has.1)

theorem run_idle (C : ShellCrypto) (as : List Action) {db : Shell} {since : Timestamp} {k : Uuid}
    (has : System.Along (perform C) (TouchesActive C) as db)
    (hsince : ∀ x ∈ as.filterMap Action.now, since ≤ x)
    (hr : db.sessions.lookup (some k) = some r) (hidle : r.idleExpiresAt ≤ since) :
    ∃ r', (System.run (perform C) as db).sessions.lookup (some k) = some r' ∧
      r'.idleExpiresAt = r.idleExpiresAt := by
  induction as generalizing db r with
  | nil => exact ⟨r, hr, rfl⟩
  | cons a as ih =>
      have hlater : ∀ x ∈ as.filterMap Action.now, since ≤ x := fun x hx => hsince x (tail_mem hx)
      rcases perform_lookup C a db k with hsame | ⟨t, c, x, y, rfl, hx, hy, hchange⟩ |
        ⟨t, p, x, -, -, hnone, -⟩
      · exact ih has.2 hlater (hsame.trans hr) hidle
      · obtain rfl : x = r := Option.some.inj (hx.symm.trans hr)
        have hnow : since ≤ t.now := hsince t.now (now_mem rfl)
        have hkept : y.idleExpiresAt = x.idleExpiresAt := by
          refine hchange.idle fun b hb => ?_
          have hahead := hchange.touching (lookup_mem hx).1 has.1 b hb
          exact absurd hahead (not_lt.mpr (le_trans hidle hnow))
        obtain ⟨r', hr', hsame⟩ := ih has.2 hlater hy (hkept ▸ hidle)
        exact ⟨r', hr', hsame.trans hkept⟩
      · rw [hr] at hnone
        cases hnone

theorem fresh_quotas (site : ConsoleIdentity.Site) (control : Control)
    (migration : AppliedMigration) (now : Timestamp) :
    Quotas (Shell.fresh site control migration) now := by
  have hchecked := control.checked
  simp only [controlCheck, Authority.between, Bool.and_eq_true, decide_eq_true_eq] at hchecked
  obtain ⟨⟨⟨⟨-, hactor⟩, hglobal⟩, -⟩, -⟩ := hchecked
  refine ⟨?_, fun u => ?_⟩
  · simp only [Shell.active, Shell.fresh, Table.empty, List.filter_nil, List.length_nil]
    omega
  · simp only [Shell.active, Shell.fresh, Table.empty, List.filter_nil, List.length_nil]
    omega

/-- The quotas and the idle sessions, in every run whose clock does not run backwards and
whose touches find the sessions they move not idle yet.  At every time not before the
last clock of the run the counts are within the limits.  A session that was idle at a place
of the run neither counts nor is attachable at any later time. -/
theorem shell_quota (C : ShellCrypto) (site : ConsoleIdentity.Site) (control : Control)
    (migration : AppliedMigration) (as : List Action) (hclock : Ticking as)
    (has : System.Along (perform C) (TouchesActive C) as (Shell.fresh site control migration)) :
    (∀ now, (∀ x ∈ as.filterMap Action.now, x ≤ now) →
      Quotas (System.run (perform C) as (Shell.fresh site control migration)) now) ∧
    ∀ n k r since, (System.run (perform C) (as.take n)
        (Shell.fresh site control migration)).sessions.lookup (some k) = some r →
      r.idleExpiresAt ≤ since → (∀ x ∈ (as.drop n).filterMap Action.now, since ≤ x) →
      ∃ r', (System.run (perform C) as
          (Shell.fresh site control migration)).sessions.lookup (some k) = some r' ∧
        ∀ now, since ≤ now → r'.counts now = false ∧ r'.attachable now = false := by
  constructor
  · intro now hnow
    cases hfirst : as.filterMap Action.now with
    | nil =>
        exact run_quotas C as has hclock (by simp [hfirst]) hnow (le_refl now)
          (fresh_quotas site control migration now)
    | cons x xs =>
        have hx : x ∈ as.filterMap Action.now := by simp [hfirst]
        have hmin : ∀ y ∈ as.filterMap Action.now, x ≤ y := by
          intro y hy
          rw [hfirst] at hy
          have hpair := hclock
          rw [Ticking, hfirst, List.pairwise_cons] at hpair
          rcases List.mem_cons.mp hy with rfl | hy
          · exact le_refl _
          · exact hpair.1 y hy
        exact run_quotas C as has hclock hmin hnow (hnow x hx)
          (fresh_quotas site control migration x)
  · intro n k r since hr hidle hsince
    rw [← List.take_append_drop n as] at has
    have hrest := (System.Along.append.mp has).2
    obtain ⟨r', hr', hkept⟩ := run_idle C (as.drop n) hrest hsince hr hidle
    rw [← System.run_append, List.take_append_drop] at hr'
    refine ⟨r', hr', fun now hnow => ?_⟩
    have hpast : ¬ now < r'.idleExpiresAt := not_lt.mpr (hkept ▸ le_trans hidle hnow)
    simp [ShellSession.counts, ShellSession.attachable, hpast]

/-! ## Runs -/

namespace Demo

open Authority.Demo

def touch : Binding where
  sessionId := some ⟨9⟩
  browserSessionId := some ⟨102⟩
  actorId := some alice
  origin := some "https://console"
  generation := some 1
  fencingEpoch := some 2
  aal := some "aal1"
  permissionRevision := revision

/-- Session 9 becomes Ready, to be idle a minute after noon. -/
def idling : List Action :=
  setup :: .call (clock 4) (.createShellSession
    { creation 9 with idleExpiresAt := some (noon + seconds 60) }) ::
  (attempt (some "pod-1") (some "pod-1") (some "pod-1")).drop 2

/-- Session 9 is touched while it is active, and a second session is created. -/
def touched : List Action :=
  idling ++ [.call (clock 30) (.touchShellSessionActivity touch), create 61 10]

/-- Two sessions are created once session 9 is idle, and session 9 is touched. -/
def revived : List Action :=
  idling ++ [create 61 10, create 62 11, .call (clock 63) (.touchShellSessionActivity touch)]

theorem touched_touches {n : Nat} {t : Clock} {b : Binding}
    (h : touched[n]? = some (.call t (.touchShellSessionActivity b))) :
    n = 6 ∧ t = clock 30 ∧ b = touch := by
  match n with
  | 0 | 1 | 2 | 3 | 4 | 5 => cases h
  | 6 =>
      cases h
      exact ⟨rfl, rfl, rfl⟩
  | 7 | n + 8 => cases h

end Demo

/-- Both sessions count after the run whose touch finds session 9 active, and no more may. -/
theorem demo_quota :
    Quotas (Demo.after Demo.touched) (Demo.clock 62).now ∧
      (Demo.after Demo.touched).active (Demo.clock 62).now (fun _ => true) = 2 := by
  have hrun : (((Demo.after (Demo.touched.take 6)).sessions.lookup (some ⟨9⟩)).all
      (fun r => decide ((Demo.clock 30).now < r.idleExpiresAt)) &&
      decide ((Demo.after Demo.touched).active (Demo.clock 62).now (fun _ => true) = 2)) =
      true := by
    simp only [Demo.touched, Demo.idling, List.cons_append, List.take_succ_cons, Demo.after_setup]
    decide +kernel
  obtain ⟨hahead, hcount⟩ := Bool.and_eq_true_iff.mp hrun
  have has : System.Along (perform Demo.crypto) (TouchesActive Demo.crypto) Demo.touched
      (.installed ConsoleIdentity.Demo.loggedIn Authority.Demo.noon Demo.migration) := by
    refine System.Along.of_get fun n a hn t b r browser hcall _ _ hr _ _ => ?_
    subst hcall
    obtain ⟨rfl, rfl, rfl⟩ := Demo.touched_touches hn
    have hnamed : Demo.touch.sessionId = some ⟨9⟩ := rfl
    rw [hnamed] at hr
    rw [Demo.after, hr] at hahead
    exact of_decide_eq_true hahead
  have hclock : Ticking Demo.touched := by decide
  have hlast : ∀ x ∈ Demo.touched.filterMap Action.now, x ≤ (Demo.clock 62).now := by
    decide
  exact ⟨(shell_quota Demo.crypto _ _ _ Demo.touched hclock has).1 _ hlast,
    of_decide_eq_true hcount⟩

/-- Alice may have two sessions.  Session 9 is idle, so that two others may be created; a
touch then brings it back, and three sessions of hers count. -/
theorem idle_session_revived :
    Reachable Demo.crypto (Demo.after Demo.revived) ∧ Ticking Demo.revived ∧
      ((Demo.after Demo.idling).sessions.lookup (some ⟨9⟩)).any
        (fun r => !r.counts (Demo.clock 62).now) = true ∧
      ((Demo.after Demo.revived).sessions.lookup (some ⟨9⟩)).any
        (fun r => r.counts (Demo.clock 63).now && r.attachable (Demo.clock 63).now) = true ∧
      ¬ Quotas (Demo.after Demo.revived) (Demo.clock 63).now := by
  have hrun : (decide (Ticking Demo.revived) &&
      ((Demo.after Demo.idling).sessions.lookup (some ⟨9⟩)).any
        (fun r => !r.counts (Demo.clock 62).now) &&
      ((Demo.after Demo.revived).sessions.lookup (some ⟨9⟩)).any
        (fun r => r.counts (Demo.clock 63).now && r.attachable (Demo.clock 63).now) &&
      decide ((Demo.after Demo.revived).control.actorActiveLimit <
        (Demo.after Demo.revived).active (Demo.clock 63).now
          (fun r => decide (r.actorId = Authority.Demo.alice)))) = true := by
    simp only [Demo.revived, Demo.idling, List.cons_append, Demo.after_setup]
    decide +kernel
  simp only [Bool.and_eq_true] at hrun
  obtain ⟨⟨⟨hclock, hidle⟩, hback⟩, hover⟩ := hrun
  refine ⟨Demo.after_reachable _, of_decide_eq_true hclock, hidle, ?_, fun hquotas => ?_⟩
  · exact hback
  · exact absurd (hquotas.actor Authority.Demo.alice) (not_le.mpr (of_decide_eq_true hover))

end ConsoleShell
