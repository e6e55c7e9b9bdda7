import OpenSphere.Identity.Grants

/-!
# CLI devices

A device is enrolled by an approval in the browser, answers a challenge for each of its
sessions, and is revoked from the browser or with the token of a CLI session.  The two
routes end in `Site.revokeDevice`.

The row of an enrolment is frozen once it is approved, a challenge stays used, and a
device stays revoked (`Site.DeviceStep`).  `cli_credentials` reads off what this says
about runs: what a challenge and an enrolment are good for, when a session is found, and
that nothing finds a session of a revoked device.
-/

open Sql
open Authority (SubjectAuthority ModuleInstallationEnvironment Statement)
open System (Taken run)

namespace ConsoleIdentity

variable {m n : Nat} {id : Uuid} {p : DeviceApprovalArgs} {v : Option CliDevice} {r : CliSession}
  {d : CliDevice} {token : Option Bytes} {e : CliEnrollment} {subjectId : Option Uuid}
  {correlationId : Option String}

/-! ## What a step does to the tables of the devices -/

/-- Every row stays in the table, as `R` allows. -/
def Evolves {ρ κ : Type} [DecidableEq κ] {S : Schema ρ κ} (R : ρ → ρ → Prop) (t t' : Table S) :
    Prop :=
  ∀ k r, t.lookup (some k) = some r → ∃ r', t'.lookup (some k) = some r' ∧ R r r'

section Tables

variable {ρ κ : Type} [DecidableEq κ] {S : Schema ρ κ} {R : ρ → ρ → Prop} {t t' t'' : Table S}

theorem Evolves.of_eq (hrefl : ∀ r, R r r) (h : t' = t) : Evolves R t t' := by
  subst h
  exact fun k r hr => ⟨r, hr, hrefl r⟩

theorem Evolves.trans (htrans : ∀ {a b c}, R a b → R b c → R a c) (h : Evolves R t t')
    (h' : Evolves R t' t'') : Evolves R t t'' := by
  intro k r hr
  obtain ⟨r', hr', hR⟩ := h k r hr
  obtain ⟨r'', hr'', hR'⟩ := h' k r' hr'
  exact ⟨r'', hr'', htrans hR hR'⟩

theorem Evolves.insert (hrefl : ∀ r, R r r) {x : ρ} (h : t.insert x = .ok t') :
    Evolves R t t' := by
  intro k r hr
  rcases lookup_insert_rel h hrefl k with hrel | ⟨hnone, -⟩
  · rw [hr] at hrel
    cases ht' : t'.lookup (some k) with
    | none => rw [ht'] at hrel; cases hrel
    | some r' =>
        rw [ht'] at hrel
        cases hrel with
        | some hR => exact ⟨r', rfl, hR⟩
  · rw [hnone] at hr
    cases hr

theorem Evolves.put (hrefl : ∀ r, R r r) {old x : ρ} (h : t.put x = .ok t') (hold : old ∈ t.rows)
    (hkey : S.key x = S.key old) (hR : R old x) : Evolves R t t' := by
  intro k r hr
  rw [Table.lookup_put h, hr]
  split
  next hk =>
    refine ⟨x, rfl, ?_⟩
    obtain ⟨hmem, hrk⟩ := Table.lookup_eq_some.mp hr
    have : r = old := Table.eq_of_key_eq hmem hold
      ((Option.some.inj hrk).symm.trans (hk.trans hkey))
    rw [this]
    exact hR
  next => exact ⟨r, rfl, hrefl r⟩

end Tables

/-- A device keeps its subject, and stays revoked. -/
def CliDevice.Later (d d' : CliDevice) : Prop :=
  d'.subjectId = d.subjectId ∧ (d.active = false → d'.active = false)

def CliChallenge.Later (c c' : CliChallenge) : Prop := c.usedAt ≠ none → c'.usedAt ≠ none

theorem CliDevice.Later.refl (d : CliDevice) : d.Later d := ⟨rfl, id⟩

theorem CliDevice.Later.trans {d' d'' : CliDevice} (h : d.Later d') (h' : d'.Later d'') :
    d.Later d'' :=
  ⟨h'.1.trans h.1, fun hd => h'.2 (h.2 hd)⟩

theorem CliChallenge.Later.refl (c : CliChallenge) : c.Later c := id

theorem CliChallenge.Later.trans {c c' c'' : CliChallenge} (h : c.Later c') (h' : c'.Later c'') :
    c.Later c'' :=
  fun hc => h' (h hc)

def CliEnrollment.Approved (devices : Table cliDeviceSchema) (e : CliEnrollment) : Prop :=
  ∃ d, devices.lookup e.deviceId = some d ∧ e.subjectId = some d.subjectId

inductive EnrollmentStep (devices : Table cliDeviceSchema) :
    Option CliEnrollment → Option CliEnrollment → Prop where
  | same {x : Option CliEnrollment} : EnrollmentStep devices x x
  | created {e : CliEnrollment} (hpending : e.approved = false) :
      EnrollmentStep devices none (some e)
  | approved {e e' : CliEnrollment} (hpending : e.approved = false) (happroved : e'.approved = true)
      (hdevice : e'.Approved devices) : EnrollmentStep devices (some e) (some e')

structure Site.DeviceStep (site site' : Site) : Prop where
  devices : Evolves CliDevice.Later site.devices site'.devices
  enrollments : ∀ id, EnrollmentStep site'.devices (site.enrollments.lookup (some id))
    (site'.enrollments.lookup (some id))
  challenges : Evolves CliChallenge.Later site.challenges site'.challenges

section Steps

variable {C : Crypto} {s : Statement} {site site' : Site}

theorem Site.DeviceStep.same (hdevices : site'.devices = site.devices)
    (henrollments : site'.enrollments = site.enrollments)
    (hchallenges : site'.challenges = site.challenges) : site.DeviceStep site' where
  devices := .of_eq CliDevice.Later.refl hdevices
  enrollments id := by
    rw [henrollments]
    exact .same
  challenges := .of_eq CliChallenge.Later.refl hchallenges

theorem createEnrollment_devices {p : EnrollmentArgs} {v : CliEnrollment}
    (h : createCliDeviceEnrollment s p site = .ok (site', v)) : site.DeviceStep site' := by
  obtain ⟨e, t, hpending, hinsert, rfl⟩ := createEnrollment_eq_ok h
  refine ⟨.of_eq CliDevice.Later.refl rfl, fun id => ?_, .of_eq CliChallenge.Later.refl rfl⟩
  show EnrollmentStep _ (site.enrollments.lookup (some id)) (t.lookup (some id))
  rw [Table.lookup_insert hinsert]
  split
  next hid =>
    subst hid
    rw [Table.lookup_insert_self hinsert]
    exact .created hpending
  next => exact .same

theorem resolveCli_devices {v : ResolvedCli}
    (h : resolveCliSession s token site = .ok (site', v)) : site.DeviceStep site' := by
  obtain ⟨w, hactive, -, rfl | ⟨cliSessions, devices, -, hput, rfl⟩⟩ := resolveCli_eq_ok h
  · exact .same rfl rfl rfl
  · simp only [Site.activeCliSession, bind_eq_ok, orRaise_eq_ok, pure_eq_ok] at hactive
    obtain ⟨r', -, d', hd, x', -, _, -, heq⟩ := hactive
    cases heq
    exact ⟨.put CliDevice.Later.refl hput (Table.lookup_eq_some.mp hd).1 rfl ⟨rfl, id⟩,
      fun _ => .same, .of_eq CliChallenge.Later.refl rfl⟩

theorem Site.RevokesDevice.devices {deviceId : Option Uuid} (h : site.RevokesDevice deviceId site') :
    site.DeviceStep site' := by
  obtain ⟨d, d', devices, p, f, cliSessions, events, hd, -, ⟨hid, hsubject, hinactive⟩, hput, -, -, rfl⟩ := h
  exact ⟨.put CliDevice.Later.refl hput hd hid ⟨hsubject, fun _ => hinactive⟩, fun _ => .same,
    .of_eq CliChallenge.Later.refl rfl⟩

theorem approveDevice_devices
    (h : approveCliDeviceEnrollment C s p site = .ok (site', v)) : site.DeviceStep site' := by
  obtain ⟨e, u, he, -, ⟨rfl, -⟩ | ⟨d, e', devices, enrollments, events, -, -, hpending, happroved, hid,
    hsubject, hdevice, hinsert, hput, rfl⟩⟩ := approveDevice_eq_ok h
  · exact .same rfl rfl rfl
  · refine ⟨.insert CliDevice.Later.refl hinsert, fun id => ?_, .of_eq CliChallenge.Later.refl rfl⟩
    obtain ⟨hmem, hkey⟩ := Table.lookup_eq_some.mp he
    rw [Table.lookup_put hput]
    split
    next hk =>
      have hold : site.enrollments.lookup (some id) = some e :=
        Table.lookup_eq_some.mpr ⟨hmem, by rw [hk]; exact congrArg some hid⟩
      rw [hold]
      refine .approved hpending happroved ⟨d, ?_, hsubject⟩
      rw [hdevice]
      exact (Table.lookup_insert hinsert _).trans (if_pos rfl)
    next => exact .same

/-! ## Actions that leave the tables of the devices alone -/

theorem complete_devices {p : CompletionArgs} {v : SubjectAuthority}
    (h : completeManagedIdentityLifecycle C s p site = .ok (site', v)) : site.DeviceStep site' := by
  obtain ⟨u, action, site₁, w, t, -, -, hcomplete, rfl, -⟩ := complete_eq_ok h
  rcases completeAction_eq_ok hcomplete with ⟨x, hx, -⟩ | ⟨x, -, -, hrevoke, -⟩ | ⟨rfl, -⟩
  · obtain ⟨-, t₁, g, -, -, rfl⟩ := createIdentity_eq_ok hx
    exact .same rfl rfl rfl
  · obtain ⟨t₁, t₂, -, rfl⟩ := revokeIdentity_eq_ok hrevoke
    exact .same rfl rfl rfl
  · exact .same rfl rfl rfl

theorem changeRole_devices {p : RoleChangeArgs} {v : RoleChange}
    (h : changeManagedIdentityRole C s p site = .ok (site', v)) : site.DeviceStep site' := by
  obtain ⟨target, -, h⟩ := bind_eq_ok.mp h
  simp only at h
  split at h
  next =>
    cases h
    exact .same rfl rfl rfl
  next =>
    simp only [Site.setRoles, bind_eq_ok, pure_eq_ok] at h
    obtain ⟨_, -, _, -, w, ⟨g, -, site₁, hgrants, site₂, hput, ⟨site₃, n⟩, hrevoke, hw⟩, action, -,
      site₄, happend, heq⟩ := h
    cases hw
    cases heq
    obtain ⟨g', -, rfl⟩ := insertGrants_eq_ok hgrants
    obtain ⟨t, -, rfl⟩ := putAuthority_eq_ok hput
    have hframe := revoked_frame hrevoke happend
    exact .same hframe.devices hframe.enrollments hframe.challenges

/-- The loop of a policy upgrade works on authorities, grants and browser sessions. -/
theorem upgradePolicy_devices {generated : Uuid → Uuid × Uuid}
    (h : upgradePolicy C s generated site = .ok site') :
    site'.devices = site.devices ∧ site'.enrollments = site.enrollments ∧
      site'.challenges = site.challenges := by
  obtain ⟨policy, -, hloop⟩ := upgradePolicy_eq_ok h
  have hstep : ∀ {x : Site} {u : Uuid} {y : Site}, x.upgradeSubject C
      { s with rowId := (generated u).1, eventId := (generated u).2 } policy u = .ok y →
      y.devices = x.devices ∧ y.enrollments = x.enrollments ∧ y.challenges = x.challenges := by
    intro x u y hu
    obtain ⟨a, -, -, ⟨-, rfl⟩ | ⟨-, g, site₁, site₂, n, t, -, hput, hrevoke, rfl⟩⟩ :=
      upgradeSubject_eq_ok hu
    · exact ⟨rfl, rfl, rfl⟩
    · obtain ⟨t₁, -, rfl⟩ := putAuthority_eq_ok hput
      obtain ⟨t₂, -, rfl⟩ := revokeSessions_eq_ok hrevoke
      exact ⟨rfl, rfl, rfl⟩
  have hsame := foldlM_relation (R := fun x y : Site => y.devices = x.devices ∧
    y.enrollments = x.enrollments ∧ y.challenges = x.challenges) (fun _ => ⟨rfl, rfl, rfl⟩)
    (fun h h' => ⟨h'.1.trans h.1, h'.2.1.trans h.2.1, h'.2.2.trans h.2.2⟩) hstep hloop
  exact hsame

end Steps

/-! ## All actions -/

section Runs

variable {C : Crypto} {site site' : Site} {a : Action}

theorem exec_devices (h : a.exec C site = .ok site') : site.DeviceStep site' := by
  cases a with
  | upgrade s generated =>
      obtain ⟨hdevices, henrollments, hchallenges⟩ := upgradePolicy_devices h
      exact .same hdevices henrollments hchallenges
  | audit s e =>
      obtain ⟨t, rfl⟩ := append_eq_ok h
      exact .same rfl rfl rfl
  | users next | environment next =>
      cases h
      exact .same rfl rfl rfl
  | call s c =>
      by_cases hc : c.keepsTables = true
      · have hframe := exec_frame hc h
        exact .same hframe.devices hframe.enrollments hframe.challenges
      cases c with
      | claimInitialAdministrator subjectId correlationId =>
          obtain ⟨v, hv⟩ := fst_eq_ok h
          obtain ⟨t, g, e, -, -, -, -, rfl⟩ := claim_eq_ok hv
          exact .same rfl rfl rfl
      | changeManagedIdentityRole p =>
          obtain ⟨v, hv⟩ := fst_eq_ok h
          exact changeRole_devices hv
      | completeManagedIdentityLifecycle p =>
          obtain ⟨v, hv⟩ := fst_eq_ok h
          exact complete_devices hv
      | createCliDeviceEnrollment p =>
          obtain ⟨v, hv⟩ := fst_eq_ok h
          exact createEnrollment_devices hv
      | approveCliDeviceEnrollment p =>
          obtain ⟨v, hv⟩ := fst_eq_ok h
          exact approveDevice_devices hv
      | createCliDeviceChallenge deviceId nonceDigest expiresAt =>
          obtain ⟨v, hv⟩ := fst_eq_ok h
          obtain ⟨c, t, hinsert, rfl⟩ := createChallenge_eq_ok hv
          exact ⟨.of_eq CliDevice.Later.refl rfl, fun _ => .same, .insert CliChallenge.Later.refl hinsert⟩
      | completeCliDeviceSession p =>
          obtain ⟨v, hv⟩ := fst_eq_ok h
          obtain ⟨c, x, challenges, cliSessions, events, hc, -, hput, -, -, -, -, rfl⟩ :=
            completeCliSession_eq_ok hv
          exact ⟨.of_eq CliDevice.Later.refl rfl, fun _ => .same, .put CliChallenge.Later.refl hput
            (Table.lookup_eq_some.mp hc).1 rfl fun _ => Option.some_ne_none _⟩
      | resolveCliSession token =>
          obtain ⟨v, hv⟩ := fst_eq_ok h
          exact resolveCli_devices hv
      | revokeOwnedCliDevice actor deviceId reason correlationId =>
          obtain ⟨v, hv⟩ := fst_eq_ok h
          exact (revokeOwnedCliDevice_eq_ok hv).devices
      | revokeOwnedCliDeviceWithCliSession token deviceId reason correlationId =>
          obtain ⟨v, hv⟩ := fst_eq_ok h
          exact (revokeOwnedWithCliSession_eq_ok hv).devices
      | _ => exact absurd rfl hc

theorem perform_devices (C : Crypto) (a : Action) (site : Site) :
    site.DeviceStep (perform C a site) := by
  rcases perform_cases C a site with hsame | hok
  · rw [hsame]
    exact .same rfl rfl rfl
  · exact exec_devices hok

theorem run_device (C : Crypto) (as : List Action) (site : Site) :
    Evolves CliDevice.Later site.devices (run (perform C) as site).devices :=
  System.run_relation (R := fun x y : Site => Evolves CliDevice.Later x.devices y.devices)
    (fun _ => .of_eq CliDevice.Later.refl rfl)
    (fun h h' => h.trans (fun ha hb => CliDevice.Later.trans ha hb) h')
    (fun a site => (perform_devices C a site).devices) as site

theorem run_challenge (C : Crypto) (as : List Action) (site : Site) :
    Evolves CliChallenge.Later site.challenges (run (perform C) as site).challenges :=
  System.run_relation (R := fun x y : Site => Evolves CliChallenge.Later x.challenges y.challenges)
    (fun _ => .of_eq CliChallenge.Later.refl rfl)
    (fun h h' => h.trans (fun ha hb => CliChallenge.Later.trans ha hb) h')
    (fun a site => (perform_devices C a site).challenges) as site

theorem EnrollmentStep.frozen {devices : Table cliDeviceSchema} {x y : Option CliEnrollment}
    (h : EnrollmentStep devices x y) (hx : x = some e)
    (happroved : e.approved = true) : y = some e := by
  cases h with
  | same => exact hx
  | created => cases hx
  | approved hpending =>
      cases hx
      rw [happroved] at hpending
      cases hpending

theorem run_enrollment (C : Crypto) (as : List Action) {site : Site}
    (he : site.enrollments.lookup (some id) = some e) (happroved : e.approved = true) :
    (run (perform C) as site).enrollments.lookup (some id) = some e :=
  System.run_relation (R := fun x y : Site => x.enrollments.lookup (some id) = some e →
      y.enrollments.lookup (some id) = some e) (fun _ h => h) (fun h h' hx => h' (h hx))
    (fun a site hx => ((perform_devices C a site).enrollments id).frozen hx happroved) as site he

def Site.Enrolled (site : Site) : Prop :=
  ∀ id e, site.enrollments.lookup (some id) = some e → e.approved = true → e.Approved site.devices

theorem CliEnrollment.Approved.later {devices devices' : Table cliDeviceSchema}
    (h : e.Approved devices) (hlater : Evolves CliDevice.Later devices devices') :
    e.Approved devices' := by
  obtain ⟨d, hd, hsubject⟩ := h
  obtain ⟨id, hid⟩ : ∃ id, e.deviceId = some id := ⟨_, (Table.lookup_eq_some.mp hd).2⟩
  rw [hid] at hd
  obtain ⟨d', hd', hsame, -⟩ := hlater id d hd
  exact ⟨d', by rw [hid]; exact hd', by rw [hsame]; exact hsubject⟩

theorem Site.DeviceStep.enrolled (h : site.DeviceStep site') (hsite : site.Enrolled) :
    site'.Enrolled := by
  intro id e he happroved
  have hstep := h.enrollments id
  rw [he] at hstep
  generalize hx : site.enrollments.lookup (some id) = x at hstep
  cases hstep with
  | same => exact (hsite id e hx happroved).later h.devices
  | created hpending =>
      rw [happroved] at hpending
      cases hpending
  | approved _ _ hdevice => exact hdevice

variable (C) (users : List Uuid) (environment : Option ModuleInstallationEnvironment) (policy : Policy)

theorem reach_enrolled (as : List Action) :
    (reach C users environment policy as).Enrolled :=
  System.run_invariant (fun a site h => (perform_devices C a site).enrolled h)
    (fun id e he => by cases he) as

/-- **Devices.**  Whatever follows a run, a device keeps its subject and stays revoked, a challenge stays
used, and an approved enrollment stays as it is and belongs to the device it names. -/
theorem devices_kept (as bs : List Action) :
    Evolves CliDevice.Later (reach C users environment policy as).devices
      (reach C users environment policy (as ++ bs)).devices ∧
    Evolves CliChallenge.Later (reach C users environment policy as).challenges
      (reach C users environment policy (as ++ bs)).challenges ∧
    ∀ id e, (reach C users environment policy as).enrollments.lookup (some id) = some e →
      e.approved = true →
      (reach C users environment policy (as ++ bs)).enrollments.lookup (some id) = some e ∧
        e.Approved (reach C users environment policy (as ++ bs)).devices := by
  have hdevices := run_device C bs (reach C users environment policy as)
  rw [reach_append]
  refine ⟨hdevices, run_challenge C bs _, fun id e he happroved => ?_⟩
  exact ⟨run_enrollment C bs he happroved,
    (reach_enrolled C users environment policy as id e he happroved).later hdevices⟩

/-! ## When a session is found -/

structure CliSession.Good (site : Site) (s : Statement) (r : CliSession) : Prop where
  unrevoked : r.revokedAt = none
  unexpired : s.now < r.expiresAt
  device : ∃ d, site.devices.lookup (some r.deviceId) = some d ∧ d.active = true
  current : ∃ x, site.authority r.subjectId = some x ∧
    x.permissionRevision = r.permissionRevision ∧ x.revokeEpoch = r.revokeEpoch

theorem activeCliSession_good {s : Statement}
    {v : CliSession × CliDevice × SubjectAuthority} (h : site.activeCliSession s token = .ok v) :
    v.1 ∈ site.cliSessions.rows ∧ v.1.Good site s := by
  obtain ⟨hmem, hx, hrevision, hepoch⟩ := activeCliSession_eq_ok h
  simp only [Site.activeCliSession, bind_eq_ok, orRaise_eq_ok, raiseIf_eq_ok, pure_eq_ok] at h
  obtain ⟨r, -, d, hd, x, -, _, hguard, rfl⟩ := h
  have hnot := any_ne_true hguard
  refine ⟨hmem, isNotNull_passed (hnot _ (List.mem_cons_self ..)),
    le_passed (hnot (le (some r.expiresAt) (some s.now)) (by simp)), ⟨d, hd, ?_⟩,
    x, hx, hrevision, hepoch⟩
  simpa using decided_passed (hnot (some (!d.active)) (by simp))

theorem activeCliSession_of_good {s : Statement} (hr : r ∈ site.cliSessions.rows)
    (h : r.Good site s) :
    ∃ d x, site.activeCliSession s (some r.tokenDigest) = .ok (r, d, x) ∧
      d ∈ site.devices.rows := by
  obtain ⟨d, hd, hactive⟩ := h.device
  obtain ⟨x, hx, hrevision, hepoch⟩ := h.current
  have hfind : site.cliSessions.rows.find? (fun y => decide (y.tokenDigest = r.tokenDigest)) =
      some r := by
    refine find_eq_of_unique hr (by simp) fun y hy hsame => ?_
    have hsame := of_decide_eq_true hsame
    exact Table.eq_of_conflict hy hr (by simp [Schema.conflict, cliSessionSchema, hsame])
      (by simp [Schema.conflict, cliSessionSchema, hsame])
  refine ⟨d, x, ?_, (Table.lookup_eq_some.mp hd).1⟩
  have hlive : ¬ r.expiresAt ≤ s.now := Int.not_le.mpr h.unexpired
  simp only [Site.authority] at hx
  simp [Site.activeCliSession, hfind, hd, hx, orRaise, raiseIf, h.unrevoked, hactive, hrevision,
    hepoch, isNotNull, le, ne, hlive, Cond.any, Cond.or, bind, Except.bind, pure, Except.pure]

theorem Site.ResolvesCli.good {s : Statement} (h : site.ResolvesCli s id) :
    ∃ r, site.cliSession id = some r ∧ r.Good site s := by
  obtain ⟨token, v, hv, rfl⟩ := h.active
  obtain ⟨hmem, hgood⟩ := activeCliSession_good hv
  exact ⟨v.1, Table.lookup_eq_some.mpr ⟨hmem, rfl⟩, hgood⟩

theorem putSeen (hr : r ∈ site.cliSessions.rows) (t : Timestamp) :
    ∃ t', site.cliSessions.put { r with lastUsedAt := t } = .ok t' := by
  have hcheck : cliSessionSchema.check { r with lastUsedAt := t } = cliSessionSchema.check r := rfl
  refine (Table.put_isOk (r := { r with lastUsedAt := t }) hr rfl (fun _ => ⟨rfl, rfl⟩) rfl).mpr ?_
  rw [hcheck]
  exact site.cliSessions.checked r hr

theorem putUsed (hd : d ∈ site.devices.rows) (t : Option Timestamp) :
    ∃ t', site.devices.put { d with lastUsedAt := t } = .ok t' := by
  have hcheck : cliDeviceSchema.check { d with lastUsedAt := t } = cliDeviceSchema.check d := rfl
  have hclash : ∀ x, cliDeviceSchema.clash x { d with lastUsedAt := t } =
        cliDeviceSchema.clash x d ∧
      cliDeviceSchema.clash { d with lastUsedAt := t } x = cliDeviceSchema.clash d x :=
    fun _ => ⟨rfl, rfl⟩
  refine (Table.put_isOk (r := { d with lastUsedAt := t }) hd rfl hclash rfl).mpr ?_
  rw [hcheck]
  exact site.devices.checked d hd

/-- A good session is found by its token: the times of its last use never violate a
constraint. -/
theorem resolveCli_of_good {s : Statement} (hr : r ∈ site.cliSessions.rows)
    (h : r.Good site s) :
    ∃ site' v, resolveCliSession s (some r.tokenDigest) site = .ok (site', v) ∧ v.session = r := by
  obtain ⟨d, x, hactive, hd⟩ := activeCliSession_of_good hr h
  have hdigest : digestMissing (some r.tokenDigest) ≠ some true := by
    have hcheck := site.cliSessions.checked r hr
    simp only [cliSessionSchema, Bool.and_eq_true, decide_eq_true_eq] at hcheck
    simp [digestMissing, coalesce, hcheck.1.1.1.1]
  obtain ⟨t, ht⟩ := putSeen hr s.now
  obtain ⟨t', ht'⟩ := putUsed hd (some s.now)
  simp only [resolveCliSession, bind_eq_ok, raiseIf_eq_ok]
  by_cases hold : r.lastUsedAt < s.now - minutes 1
  · exact ⟨_, _, ⟨(), hdigest, _, hactive, by
      rw [if_pos hold, bind_of_ok ht, bind_of_ok ht']
      rfl⟩, rfl⟩
  · exact ⟨_, _, ⟨(), hdigest, _, hactive, by
      rw [if_neg hold]
      rfl⟩, rfl⟩

end Runs

/-! ## Runs -/

section Places

variable {C : Crypto} {start : Site} {as : List Action}

def CliIssue (C : Crypto) (start : Site) (as : List Action) (n : Nat) (p : CliSessionArgs)
    (r : CliSession) : Prop :=
  ∃ s site site', Taken (perform C) start as n (.call s (.completeCliDeviceSession p)) site ∧
    completeCliDeviceSession C s p site = .ok (site', r)

/-- At a place of the run an enrolment is approved, and a device is returned. -/
def CliApproval (C : Crypto) (start : Site) (as : List Action) (n : Nat) (p : DeviceApprovalArgs)
    (v : Option CliDevice) : Prop :=
  ∃ s site site', Taken (perform C) start as n (.call s (.approveCliDeviceEnrollment p)) site ∧
    approveCliDeviceEnrollment C s p site = .ok (site', v)

inductive Call.RevokesDevice (id : Uuid) : Call → Prop where
  | browser (actor : Actor) (reason correlationId : Option String) :
      Call.RevokesDevice id (.revokeOwnedCliDevice actor (some id) reason correlationId)
  | bearer (token : Option Bytes) (reason correlationId : Option String) :
      Call.RevokesDevice id
        (.revokeOwnedCliDeviceWithCliSession token (some id) reason correlationId)

/-- At a place of the run a device is revoked. -/
def CliRevocation (C : Crypto) (start : Site) (as : List Action) (n : Nat) (id : Uuid) : Prop :=
  ∃ s c site site', Taken (perform C) start as n (.call s c) site ∧ c.RevokesDevice id ∧
    c.exec C s site = .ok site'

theorem run_after {a : Action} {site site' : Site}
    (h : Taken (perform C) start as n a site) (hexec : a.exec C site = .ok site') (hnm : n < m) :
    run (perform C) (as.take m) start = run (perform C) ((as.take m).drop (n + 1)) site' := by
  rw [System.run_take_of_le (perform C) hnm as start, System.run_take_succ h.step, h.before,
    perform_of_ok hexec]

/-- A challenge that was used for a session is not used for another one later. -/
theorem CliIssue.not_later {p p' : CliSessionArgs} {r' : CliSession}
    (h : CliIssue C start as n p r) (h' : CliIssue C start as m p' r')
    (hsame : p.challengeId = p'.challengeId) : ¬ n < m := by
  intro hnm
  obtain ⟨s, site, site', htaken, hcall⟩ := h
  obtain ⟨s', site₁, site₁', htaken', hcall'⟩ := h'
  obtain ⟨c, x, challenges, cliSessions, events, hc, -, hput, -, -, -, -, heq⟩ := completeCliSession_eq_ok hcall
  rw [show challenges = site'.challenges by rw [heq]] at hput
  obtain ⟨c', _, _, _, _, hc', hunused, -⟩ := completeCliSession_eq_ok hcall'
  obtain ⟨hmem, hid⟩ := Table.lookup_eq_some.mp hc
  have hused : site'.challenges.lookup (some c.challengeId) =
      some { c with usedAt := some s.now } := by
    rw [Table.lookup_put hput, if_pos (by rfl)]
    have hold : site.challenges.lookup (some c.challengeId) = some c := by
      rw [← hc]
      exact congrArg _ hid.symm
    rw [hold]
    rfl
  have hexec : Action.exec C site (.call s (.completeCliDeviceSession p)) = .ok site' := by
    simp [Action.exec, Call.exec, hcall]
  obtain ⟨c'', hc'', hlater⟩ := run_challenge C ((as.take m).drop (n + 1)) site' _ _ hused
  rw [← run_after htaken hexec hnm, htaken'.before] at hc''
  have hfound : site₁.challenges.lookup p'.challengeId = some c'' := by
    rw [← hsame, hid]
    exact hc''
  cases hfound.symm.trans hc'
  exact hlater (Option.some_ne_none _) hunused

/-- An approval leaves its enrolment approved for its actor, and returns its device. -/
theorem approved_of_approval {s : Statement} {site site' : Site}
    (h : approveCliDeviceEnrollment C s p site = .ok (site', v))
    (hsite : site.Enrolled) :
    ∃ id e d, p.enrollmentId = some id ∧ site'.enrollments.lookup (some id) = some e ∧
      e.approved = true ∧ v = some d ∧ e.deviceId = some d.deviceId ∧
      e.subjectId = some d.subjectId ∧ p.actor.actorRef = some d.subjectId := by
  obtain ⟨e, u, he, hu, ⟨rfl, happroved, hsubject, rfl⟩ | ⟨d, e', devices, enrollments, events, rfl, rfl, -,
    happroved, hid, hsubject, hdevice, -, hput, rfl⟩⟩ := approveDevice_eq_ok h
  · obtain ⟨hmem, hid⟩ := Table.lookup_eq_some.mp he
    rw [hid] at he
    obtain ⟨d, hd, howner⟩ := hsite _ e he happroved
    have hsame : d.subjectId = u := ne_passed hsubject howner rfl
    exact ⟨_, e, d, hid, he, happroved, hd, (Table.lookup_eq_some.mp hd).2, howner,
      by rw [hsame]; exact hu⟩
  · obtain ⟨hmem, hkey⟩ := Table.lookup_eq_some.mp he
    refine ⟨_, e', d, hkey, ?_, happroved, rfl, hdevice, hsubject, hu⟩
    rw [Table.lookup_put hput, if_pos (by exact hid.symm)]
    have hold : site.enrollments.lookup (some (cliEnrollmentSchema.key e)) = some e :=
      Table.lookup_eq_some.mpr ⟨hmem, rfl⟩
    rw [hold]
    rfl

/-- Two approvals of an enrolment return one device of one subject. -/
theorem CliApproval.agree {p' : DeviceApprovalArgs} {v' : Option CliDevice}
    (hstart : ∀ n, (run (perform C) (as.take n) start).Enrolled)
    (h : CliApproval C start as n p v) (h' : CliApproval C start as m p' v')
    (hsame : p.enrollmentId = p'.enrollmentId) (hnm : n ≤ m) :
    ∃ d d', v = some d ∧ v' = some d' ∧ d'.deviceId = d.deviceId ∧
      d'.subjectId = d.subjectId ∧ p.actor.actorRef = some d.subjectId ∧
      p'.actor.actorRef = some d.subjectId := by
  obtain ⟨s, site, site', htaken, hcall⟩ := h
  obtain ⟨s', site₁, site₁', htaken', hcall'⟩ := h'
  have hsite := hstart n
  have hsite₁ := hstart m
  rw [htaken.before] at hsite
  rw [htaken'.before] at hsite₁
  obtain ⟨id, e, d, hid, he, happroved, rfl, hdevice, hsubject, hactor⟩ :=
    approved_of_approval hcall hsite
  obtain ⟨id', e', d', hid', he', -, rfl, hdevice', hsubject', hactor'⟩ :=
    approved_of_approval hcall' hsite₁
  cases hid.symm.trans (hsame.trans hid')
  have hfrozen : site₁'.enrollments.lookup (some id) = some e := by
    have hexec : Action.exec C site (.call s (.approveCliDeviceEnrollment p)) = .ok site' := by
      simp [Action.exec, Call.exec, hcall]
    have hexec' : Action.exec C site₁ (.call s' (.approveCliDeviceEnrollment p')) = .ok site₁' := by
      simp [Action.exec, Call.exec, hcall']
    have hafter := run_after htaken hexec (Nat.lt_succ_of_le hnm)
    rw [System.run_take_succ htaken'.step, htaken'.before, perform_of_ok hexec'] at hafter
    rw [hafter]
    exact run_enrollment C _ he happroved
  cases hfrozen.symm.trans he'
  have hids : d'.deviceId = d.deviceId := Option.some.inj (hdevice'.symm.trans hdevice)
  have hsubjects : d'.subjectId = d.subjectId := Option.some.inj (hsubject'.symm.trans hsubject)
  exact ⟨d, d', rfl, rfl, hids, hsubjects, hactor, by rw [← hsubjects]; exact hactor'⟩

theorem CliRevocation.inactive (h : CliRevocation C start as n id)
    (hnm : n < m) :
    ∃ d, (run (perform C) (as.take m) start).devices.lookup (some id) = some d ∧
      d.active = false := by
  obtain ⟨s, c, site, site', htaken, hrevokes, hexec⟩ := h
  have hrevoked : ∃ d, site'.devices.lookup (some id) = some d ∧ d.active = false := by
    have hroute : site.RevokesDevice (some id) site' := by
      cases hrevokes with
      | browser actor reason correlationId =>
          obtain ⟨v, hv⟩ := fst_eq_ok hexec
          exact revokeOwnedCliDevice_eq_ok hv
      | bearer token reason correlationId =>
          obtain ⟨v, hv⟩ := fst_eq_ok hexec
          exact revokeOwnedWithCliSession_eq_ok hv
    obtain ⟨d, d', devices, p, f, cliSessions, events, hmem, hid, ⟨hkey, -, hinactive⟩, hput, -, -, rfl⟩ := hroute
    have hold : site.devices.lookup (some id) = some d := Table.lookup_eq_some.mpr ⟨hmem, hid⟩
    have hfound := Table.lookup_put hput id
    rw [if_pos (by exact (Option.some.inj hid).trans hkey.symm), hold] at hfound
    exact ⟨_, hfound, hinactive⟩
  obtain ⟨d, hd, hinactive⟩ := hrevoked
  obtain ⟨d', hd', -, hlater⟩ := run_device C ((as.take m).drop (n + 1)) site' id d hd
  refine ⟨d', ?_, hlater hinactive⟩
  rw [run_after htaken hexec hnm]
  exact hd'

end Places

/-- **CLI device credentials.**  In every run a challenge yields at most one session; the
approvals of an enrolment all return one device, of the subject that approves; a CLI
session is found exactly when it is unrevoked and unexpired, its device is active and its
revision and epoch are those of its subject; and once a device is revoked, by either
route, nothing finds any of its sessions again. -/
theorem cli_credentials (C : Crypto) (users : List Uuid)
    (environment : Option ModuleInstallationEnvironment) (policy : Policy) (as : List Action) :
    let start := Site.fresh users environment policy
    (∀ n m p p' r r', CliIssue C start as n p r → CliIssue C start as m p' r' →
      p.challengeId = p'.challengeId → n = m) ∧
    (∀ n m p p' v v', CliApproval C start as n p v → CliApproval C start as m p' v' →
      p.enrollmentId = p'.enrollmentId →
      ∃ d d', v = some d ∧ v' = some d' ∧ d'.deviceId = d.deviceId ∧
        d'.subjectId = d.subjectId ∧ p.actor.actorRef = some d.subjectId ∧
        p'.actor.actorRef = some d.subjectId) ∧
    (∀ s id, (∃ token site' v, resolveCliSession s token (reach C users environment policy as) =
          .ok (site', v) ∧ v.session.sessionId = id) ↔
        ∃ r, (reach C users environment policy as).cliSession id = some r ∧
          r.Good (reach C users environment policy as) s) ∧
    ∀ n m id, CliRevocation C start as n id → n < m →
      ∀ s sessionId r, (run (perform C) (as.take m) start).cliSession sessionId = some r →
        r.deviceId = id → ¬ (run (perform C) (as.take m) start).ResolvesCli s sessionId := by
  intro start
  refine ⟨?_, ?_, ?_, ?_⟩
  · intro n m p p' r r' h h' hsame
    rcases Nat.lt_trichotomy n m with hnm | hnm | hnm
    · exact absurd hnm (h.not_later h' hsame)
    · exact hnm
    · exact absurd hnm (h'.not_later h hsame.symm)
  · intro n m p p' v v' h h' hsame
    have henrolled : ∀ k, (run (perform C) (as.take k) start).Enrolled := fun k =>
      reach_enrolled C users environment policy (as.take k)
    rcases Nat.le_total n m with hnm | hnm
    · exact h.agree henrolled h' hsame hnm
    · obtain ⟨d', d, hv', hv, hids, hsubjects, hactor', hactor⟩ :=
        h'.agree henrolled h hsame.symm hnm
      exact ⟨d, d', hv, hv', hids.symm, hsubjects.symm, by rw [hsubjects]; exact hactor,
        by rw [hsubjects]; exact hactor'⟩
  · intro s id
    constructor
    · exact fun h => Site.ResolvesCli.good (.inl h)
    · rintro ⟨r, hr, hgood⟩
      obtain ⟨hmem, hid⟩ := Table.lookup_eq_some.mp hr
      obtain ⟨site', v, hv, hsession⟩ := resolveCli_of_good hmem hgood
      exact ⟨_, site', v, hv, by rw [hsession]; exact (Option.some.inj hid).symm⟩
  · intro n m id h hnm s sessionId r hr hdevice hresolves
    obtain ⟨d, hd, hinactive⟩ := h.inactive hnm
    obtain ⟨r', hr', hgood⟩ := hresolves.good
    cases hr.symm.trans hr'
    obtain ⟨d', hd', hactive⟩ := hgood.device
    rw [hdevice] at hd'
    cases hd.symm.trans hd'
    rw [hinactive] at hactive
    cases hactive

end ConsoleIdentity
