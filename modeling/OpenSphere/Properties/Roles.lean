import OpenSphere.Identity.Grants
import OpenSphere.Properties.Sessions

/-!
# Roles

A subject holds exactly the permissions of the roles whose markers it holds,
under the policy in force.  A role change revokes all managed permissions of its
target and grants those of the remaining roles, so a permission that another role
grants as well is revoked and granted again.  A policy upgrade brings one subject
after the other to the next policy; within its loop the subjects before the
current one are at the next policy and those after it at the last.

Once there is an administrator there always is one: the only action that takes a
marker away is the removal of the role, and it counts the administrators first.
-/

open Sql
open System (run)
open Authority (SubjectAuthority PermissionGrant ModuleInstallationEnvironment Statement)
open Authority.Demo (alice second)

namespace ConsoleIdentity

variable {C : Crypto} {s : Statement} {u : Uuid} {r : Role} {next policy : Policy}
  {x : SubjectAuthority} {p : String}

/-! ## The roles after a change -/

/-- The desired roles are the current ones with the addition or without the removal. -/
theorem mem_desiredRoles {p : RoleChangeArgs} {operation role : String}
    (hoperation : p.operation = some operation) (hrole : p.role = some role)
    {current : List String} {t : String} :
    t ∈ desiredRoles p current ↔
      (t ∈ current ∨ operation = "add" ∧ t = role) ∧ ¬ (operation = "remove" ∧ t = role) := by
  have hkept : (Cond.not (.and (eq p.operation (some "remove")) (eq (some t) p.role)) ==
      some true) = decide (¬ (operation = "remove" ∧ t = role)) := by
    rw [hoperation, hrole]
    by_cases hremove : operation = "remove" <;> by_cases ht : t = role <;>
      simp [eq, Cond.not, Cond.and, hremove, ht]
  simp only [desiredRoles, mem_aggDistinct, List.mem_filter, hkept, decide_eq_true_eq]
  refine and_congr_left fun _ => ?_
  rw [List.mem_append]
  refine or_congr Iff.rfl ?_
  rw [hoperation, hrole]
  by_cases hadd : operation = "add" <;> simp [eq, hadd]

/-! ## Administrators -/

theorem other_administrator {site : Site} (h : 1 < site.adminCount) (u : Uuid) :
    ∃ v, v ≠ u ∧ site.Holds v "console.role.admin" := by
  unfold Site.adminCount at h
  generalize hl : (site.grants.rows.filter fun g =>
    decide (g.permission = "console.role.admin") && g.revokedAt.isNone).map (·.subjectId) = l at h
  have hmem : ∀ v ∈ l, site.Holds v "console.role.admin" := by
    intro v hv
    rw [← hl] at hv
    obtain ⟨g, hg, rfl⟩ := List.mem_map.mp hv
    obtain ⟨hstored, hadmin⟩ := List.mem_filter.mp hg
    simp only [Bool.and_eq_true, decide_eq_true_eq, Option.isNone_iff_eq_none] at hadmin
    exact ⟨g, hstored, rfl, hadmin.1, hadmin.2⟩
  by_contra hnone
  -- if all administrators were `u`, there would be at most one of them
  have hall : ∀ v ∈ l.dedup, v = u := by
    intro v hv
    by_contra hne
    exact hnone ⟨v, hne, hmem v (List.mem_dedup.mp hv)⟩
  have hle : l.dedup.length ≤ [u].length :=
    (List.subperm_of_subset (List.nodup_dedup l) fun v hv =>
      List.mem_singleton.mpr (hall v hv)).length_le
  exact absurd h (Nat.not_lt.mpr hle)

section Steps

variable {site site' : Site}

theorem authority_of_mem (h : x ∈ site.subjects.rows) :
    site.authority x.subjectId = some x :=
  Table.lookup_eq_some.mpr ⟨h, rfl⟩

/-- No step takes the last administrator away. -/
theorem Site.GrantStep.administrator (h : site.GrantStep site') (hb : site.Bounded)
    (hadmin : ∃ u, site.Holds u Role.admins.marker) :
    ∃ u, site'.Holds u Role.admins.marker := by
  obtain ⟨v, hv⟩ := hadmin
  cases h with
  | same hgrants hpolicy => exact ⟨v, by rw [Site.Holds, hgrants]; exact hv⟩
  | created hnew hsubject hpermissions hgrants hpolicy =>
      exact ⟨v, (holds_newGrants (Table.ofRows_rows hgrants) v _).mpr (.inl hv)⟩
  | upgraded hnext hloop =>
      refine ⟨v, foldlM_invariant (I := fun site => site.Holds v Role.admins.marker) ?_ hloop hv⟩
      intro x u y h hx
      obtain ⟨-, z, -, -, hrows, -⟩ := upgradeSubject_grants h
      exact (holds_newGrants hrows v _).mpr (.inl hx)
  | @changed s p target hmem hlast hoperation hrole hset =>
      by_cases hother : ∃ w, w ≠ target.subjectId ∧ site.Holds w Role.admins.marker
      · obtain ⟨w, hne, hw⟩ := hother
        exact ⟨w, (hset.holds w _).mpr (.inl ⟨hw, fun hmanaged => hne hmanaged.1⟩)⟩
      · -- the target is the only administrator, so the change does not remove the role
        have htarget : v = target.subjectId := by
          by_contra hne
          exact hother ⟨v, hne, hv⟩
        subst htarget
        obtain ⟨operation, hop⟩ := Option.ne_none_iff_exists'.mp hoperation
        obtain ⟨role, hrl⟩ := Option.ne_none_iff_exists'.mp hrole
        refine ⟨target.subjectId, (hset.holds _ _).mpr (.inr ⟨rfl, mem_permissionsOf.mpr
          ⟨.admins, (mem_desiredRoles hop hrl).mpr ⟨.inl ?_, ?_⟩, marker_mem.mpr rfl⟩⟩)⟩
        · exact (hb.mem_rolesOf (authority_of_mem hmem)).mpr ⟨.admins, rfl, hv⟩
        · rintro ⟨rfl, rfl⟩
          refine hlast ((Cond.and_eq_true _ _).mpr ⟨?_, ?_⟩)
          · rw [removesAdmin, hop, hrl]
            decide
          · rw [decide_eq_true]
            by_contra hmany
            exact hother (other_administrator (Nat.not_le.mp hmany) _)

/-! ## Coherence -/

/-- The subject holds what its roles permit under a policy, and nothing else. -/
def Site.CoherentAt (site : Site) (policy : Policy) (u : Uuid) : Prop :=
  ∀ p, site.Holds u p ↔ ∃ r : Role, site.Holds u r.marker ∧ p ∈ r.permissions policy

theorem coherentAt_of_roles {R : Role → Prop}
    (h : ∀ p, site.Holds u p ↔ ∃ r, R r ∧ p ∈ r.permissions policy) :
    site.CoherentAt policy u := by
  have hmarker : ∀ r : Role, site.Holds u r.marker ↔ R r := by
    intro r
    rw [h]
    constructor
    · rintro ⟨r', hr', hmem⟩
      rwa [marker_mem.mp hmem]
    · exact fun hr => ⟨r, hr, marker_mem.mpr rfl⟩
  intro p
  simp only [h p, hmarker]

theorem Site.CoherentAt.congr (h : site.CoherentAt policy u)
    (hsame : ∀ p, site'.Holds u p ↔ site.Holds u p) : site'.CoherentAt policy u := by
  intro p
  simp only [hsame, h p]

/-- Who is no subject holds nothing, and is coherent under any policy. -/
theorem Site.Bounded.coherentAt_of_none (hb : site.Bounded)
    (hnone : site.authority u = none) (policy : Policy) : site.CoherentAt policy u := by
  have hempty : ∀ p, ¬ site.Holds u p := by
    rintro p ⟨g, hg, rfl, -, hactive⟩
    obtain ⟨x, hx, -⟩ := hb g hg hactive
    rw [hnone] at hx
    cases hx
  intro p
  constructor
  · exact fun hp => absurd hp (hempty p)
  · rintro ⟨r, hr, -⟩
    exact absurd hr (hempty _)

theorem SetRoles.coherentAt {target : SubjectAuthority} {roles : List String}
    (h : SetRoles s target roles site site') (hu : site.CoherentAt site.policy u) :
    site'.CoherentAt site.policy u := by
  by_cases hsame : u = target.subjectId
  · subst hsame
    refine coherentAt_of_roles (R := fun r => r.text ∈ roles) fun p => ?_
    rw [h.holds, ← mem_permissionsOf]
    constructor
    · rintro (⟨hold, hkept⟩ | ⟨-, hnew⟩)
      · -- what the target held before was managed
        obtain ⟨r, -, hp⟩ := (hu p).mp hold
        exact absurd ⟨rfl, mem_managedPermissions.mpr ⟨r, hp⟩⟩ hkept
      · exact hnew
    · exact fun hnew => .inr ⟨rfl, hnew⟩
  · refine hu.congr fun p => ?_
    rw [h.holds]
    simp [hsame]

/-! ## Policy upgrades -/

def Policy.Adds (policy : Policy) (r : Role) (p : String) : Prop :=
  match policy with
  | .managedIdentityRoles => False
  | .platformChangePermission => p = "console.git.change" ∧ r ≠ .viewers
  | .nativeShellAuthority => p = "session:attach" ∧ r ≠ .viewers
  | .nativeOsaaServingAuthority => p ∈ r.permissions .nativeOsaaServingAuthority ∧
      startsWith p "osaa." = true

instance (policy : Policy) (r : Role) (p : String) : Decidable (policy.Adds r p) :=
  match policy with
  | .managedIdentityRoles => inferInstanceAs (Decidable False)
  | .platformChangePermission => inferInstanceAs (Decidable (_ ∧ _))
  | .nativeShellAuthority => inferInstanceAs (Decidable (_ ∧ _))
  | .nativeOsaaServingAuthority => inferInstanceAs (Decidable (_ ∧ _))

theorem Policy.Adds.permitted (h : policy.Adds r p) :
    p ∈ r.permissions policy := by
  cases policy with
  | managedIdentityRoles => exact h.elim
  | platformChangePermission | nativeShellAuthority =>
      obtain ⟨rfl, hr⟩ := h
      cases r with
      | admins => decide
      | operators => decide
      | viewers => exact absurd rfl hr
  | nativeOsaaServingAuthority => exact h.1

/-- A role permits what it permitted before, and what the migration adds to it. -/
theorem permissions_next (h : policy.next = some next)
    :
    p ∈ r.permissions next ↔ p ∈ r.permissions policy ∨ next.Adds r p := by
  constructor
  · have hnew : ∀ q ∈ r.permissions next, q ∈ r.permissions policy ∨ next.Adds r q := by
      cases policy <;> cases h <;> cases r <;> decide
    exact hnew p
  · rintro (hold | hadds)
    · have hkept : ∀ q ∈ r.permissions policy, q ∈ r.permissions next := by
        cases policy <;> cases h <;> cases r <;> decide
      exact hkept p hold
    · exact hadds.permitted

/-- A migration that gives one permission to administrators and operators. -/
theorem Site.Bounded.mem_missing (hb : site.Bounded)
    (hx : site.authority x.subjectId = some x) {permission : String} :
    p ∈ site.missing x permission ↔
      (∃ r : Role, site.Holds x.subjectId r.marker ∧ p = permission ∧ r ≠ .viewers) ∧
        ¬ site.Holds x.subjectId p := by
  have hadmin := hb.grants_iff hx (p := "console.role.admin")
  have hoperator := hb.grants_iff hx (p := "console.role.operator")
  have hheld := hb.grants_iff hx (p := permission)
  constructor
  · intro h
    unfold Site.missing at h
    split at h
    next hcond =>
      obtain rfl := List.mem_singleton.mp h
      simp only [Bool.and_eq_true, Bool.or_eq_true, Bool.not_eq_true'] at hcond
      refine ⟨?_, fun hholds => ?_⟩
      · rcases hcond.1 with ha | ho
        · exact ⟨.admins, hadmin.mp ha, rfl, by decide⟩
        · exact ⟨.operators, hoperator.mp ho, rfl, by decide⟩
      · rw [hheld.mpr hholds] at hcond
        cases hcond.2
    next => cases h
  · rintro ⟨⟨r, hr, rfl, hviewers⟩, hnot⟩
    have hnone : site.grants? x p = false := by
      rw [← Bool.not_eq_true, hheld]
      exact hnot
    have hrole : (site.grants? x "console.role.admin" || site.grants? x "console.role.operator") =
        true := by
      rw [Bool.or_eq_true, hadmin, hoperator]
      cases r with
      | admins => exact .inl hr
      | operators => exact .inr hr
      | viewers => exact absurd rfl hviewers
    rw [Site.missing, hrole, hnone]
    exact List.mem_singleton.mpr rfl

theorem Site.Bounded.mem_additions (hb : site.Bounded)
    (hx : site.authority x.subjectId = some x) :
    p ∈ site.additions x policy ↔
      (∃ r : Role, site.Holds x.subjectId r.marker ∧ policy.Adds r p) ∧
        ¬ site.Holds x.subjectId p := by
  cases policy with
  | managedIdentityRoles => simp [Site.additions, Policy.Adds]
  | platformChangePermission => exact hb.mem_missing hx
  | nativeShellAuthority => exact hb.mem_missing hx
  | nativeOsaaServingAuthority =>
      have hheld := hb.grants_iff hx (p := p)
      simp only [Site.additions, mem_aggDistinct, List.mem_filter, List.mem_flatMap,
        mem_managedRolePermissions, Bool.and_eq_true, Bool.not_eq_true', hb.mem_rolesOf hx]
      constructor
      · rintro ⟨⟨t, ⟨r, rfl, hr⟩, r', hr', hp⟩, hstarts, hnot⟩
        refine ⟨⟨r, hr, ?_, hstarts⟩, fun hholds => ?_⟩
        · rwa [← Role.text_injective hr']
        · rw [hheld.mpr hholds] at hnot
          cases hnot
      · rintro ⟨⟨r, hr, hp, hstarts⟩, hnot⟩
        refine ⟨⟨r.text, ⟨r, rfl, hr⟩, r, rfl, hp⟩, hstarts, ?_⟩
        rw [← Bool.not_eq_true, hheld]
        exact hnot

theorem upgradeSubject_holds
    (h : site.upgradeSubject C s policy u = .ok site') (hb : site.Bounded) (v : Uuid) (p : String) :
    site'.Holds v p ↔ site.Holds v p ∨
      v = u ∧ ∃ r : Role, site.Holds u r.marker ∧ policy.Adds r p := by
  obtain ⟨-, x, hx, rfl, hrows, -⟩ := upgradeSubject_grants h
  rw [holds_newGrants hrows, hb.mem_additions hx]
  constructor
  · rintro (hold | ⟨rfl, hadds, -⟩)
    · exact .inl hold
    · exact .inr ⟨rfl, hadds⟩
  · rintro (hold | ⟨rfl, hadds⟩)
    · exact .inl hold
    · by_cases hheld : site.Holds x.subjectId p
      · exact .inl hheld
      · exact .inr ⟨rfl, hadds, hheld⟩

theorem upgradeSubject_coherentAt
    (h : site.upgradeSubject C s next u = .ok site') (hb : site.Bounded)
    (hnext : policy.next = some next)
    (hu : site.CoherentAt next u ∨ site.CoherentAt policy u) : site'.CoherentAt next u := by
  refine coherentAt_of_roles (R := fun r => site.Holds u r.marker) fun p => ?_
  rw [upgradeSubject_holds h hb]
  constructor
  · rintro (hold | ⟨-, r, hr, hadds⟩)
    · rcases hu with hu | hu
      · exact (hu p).mp hold
      · obtain ⟨r, hr, hp⟩ := (hu p).mp hold
        exact ⟨r, hr, (permissions_next hnext).mpr (.inl hp)⟩
    · exact ⟨r, hr, hadds.permitted⟩
  · rintro ⟨r, hr, hp⟩
    rcases hu with hu | hu
    · exact .inl ((hu p).mpr ⟨r, hr, hp⟩)
    · rcases (permissions_next hnext).mp hp with hold | hadds
      · exact .inl ((hu p).mpr ⟨r, hr, hold⟩)
      · exact .inr ⟨rfl, r, hr, hadds⟩

/-- The loop brings the subjects it has still to visit to the next policy. -/
theorem upgradeLoop_coherent {s : Uuid → Statement}
    (hnext : policy.next = some next) {l : List Uuid}
    (h : l.foldlM (fun site u => site.upgradeSubject C (s u) next u) site = .ok site')
    (hb : site.Bounded)
    (hall : ∀ v, site.CoherentAt next v ∨ v ∈ l ∧ site.CoherentAt policy v) (v : Uuid) :
    site'.CoherentAt next v := by
  induction l generalizing site with
  | nil =>
      cases h
      exact (hall v).resolve_right fun hv => List.not_mem_nil hv.1
  | cons u l ih =>
      rw [List.foldlM_cons] at h
      obtain ⟨site₁, hfirst, hrest⟩ := bind_eq_ok.mp h
      refine ih hrest (upgradeSubject_bounded hfirst hb) fun w => ?_
      by_cases hw : w = u
      · subst hw
        exact .inl (upgradeSubject_coherentAt hfirst hb hnext ((hall w).imp_right And.right))
      · have hsame : ∀ p, site₁.Holds w p ↔ site.Holds w p := by
          intro p
          rw [upgradeSubject_holds hfirst hb]
          simp [hw]
        rcases hall w with hdone | ⟨hmem, hlater⟩
        · exact .inl (hdone.congr hsame)
        · exact .inr ⟨(List.mem_cons.mp hmem).resolve_left hw, hlater.congr hsame⟩

theorem mem_subjectIds (hx : site.authority u = some x) :
    u ∈ site.subjectIds := by
  obtain ⟨hmem, hid⟩ := Table.lookup_eq_some.mp hx
  rw [Site.subjectIds, List.mem_insertionSort]
  exact List.mem_map.mpr ⟨x, hmem, (Option.some.inj hid).symm⟩

/-! ## Runs -/

def Site.Coherent (site : Site) : Prop := ∀ u, site.CoherentAt site.policy u

theorem upgradeLoop_policy {s : Uuid → Statement} {l : List Uuid}
    (h : l.foldlM (fun site u => site.upgradeSubject C (s u) policy u) site = .ok site') :
    site'.policy = site.policy :=
  foldlM_relation (R := fun x y => y.policy = x.policy) (fun _ => rfl)
    (fun hxy hyz => hyz.trans hxy) (fun hstep => (upgradeSubject_grants hstep).1) h

theorem Site.GrantStep.coherent (h : site.GrantStep site') (hb : site.Bounded)
    (hc : site.Coherent) : site'.Coherent := by
  intro u
  cases h with
  | same hgrants hpolicy =>
      rw [hpolicy]
      exact (hc u).congr fun p => by rw [Site.Holds, Site.Holds, hgrants]
  | @created v roles permissions hnew hsubject hpermissions hgrants hpolicy =>
      rw [hpolicy]
      have hholds := holds_newGrants (Table.ofRows_rows hgrants)
      by_cases hu : u = v
      · subst hu
        refine coherentAt_of_roles (R := fun r => r.text ∈ roles) fun p => ?_
        rw [hholds, ← mem_permissionsOf, hpermissions]
        constructor
        · rintro (⟨g, hg, rfl, -, hactive⟩ | ⟨-, hp⟩)
          · -- who is no subject held nothing
            obtain ⟨x, hx, -⟩ := hb g hg hactive
            rw [hnew] at hx
            cases hx
          · exact hp
        · exact fun hp => .inr ⟨rfl, hp⟩
      · refine (hc u).congr fun p => ?_
        rw [hholds]
        simp [hu]
  | changed hmem hlast hoperation hrole hset =>
      rw [hset.policy]
      exact hset.coherentAt (hc u)
  | upgraded hnext hloop =>
      rw [upgradeLoop_policy hloop]
      refine upgradeLoop_coherent hnext hloop hb (fun v => ?_) u
      cases hv : site.authority v with
      | none => exact .inl (hb.coherentAt_of_none hv _)
      | some x => exact .inr ⟨mem_subjectIds hv, hc v⟩

end Steps

theorem reach_coherent (C : Crypto) (users : List Uuid)
    (environment : Option ModuleInstallationEnvironment) (policy : Policy) (as : List Action) :
    (reach C users environment policy as).Coherent := by
  have hboth : (reach C users environment policy as).Bounded ∧
      (reach C users environment policy as).Coherent := by
    refine System.run_invariant (I := fun site => site.Bounded ∧ site.Coherent)
      (fun a site h => ⟨perform_bounded C a h.1, (perform_grants C a site).coherent h.1 h.2⟩) ?_ as
    have hbounded : (Site.fresh users environment policy).Bounded := by
      intro g hg
      cases hg
    exact ⟨hbounded, fun u => hbounded.coherentAt_of_none rfl _⟩
  exact hboth.2

theorem managedRolePermissions_text (policy : Policy) (r : Role) :
    managedRolePermissions policy r.text = r.permissions policy := by
  rw [managedRolePermissions, Role.ofText_text]

theorem removal_keeps {p : RoleChangeArgs} {site site' : Site}
    {v : RoleChange} (h : changeManagedIdentityRole C s p site = .ok (site', v)) (hb : site.Bounded)
    {r' : Role} (htarget : p.targetSubjectId = some u) (hrole : p.role = some r.text)
    (hr' : site.Holds u r'.marker) (hne : r' ≠ r) : site'.Holds u r'.marker := by
  obtain ⟨x, hx, ⟨-, rfl⟩ | ⟨-, -, -, -, hop, -, site₁, t, hset, rfl⟩⟩ := changeRole_eq_ok h
  · exact hr'
  · obtain ⟨hmem, hid⟩ := roleTarget_eq_ok hx
    rw [htarget] at hid
    cases hid
    obtain ⟨operation, hoperation⟩ := Option.ne_none_iff_exists'.mp hop
    refine (hset.holds _ _).mpr (.inr ⟨rfl, mem_permissionsOf.mpr ⟨r', ?_, marker_mem.mpr rfl⟩⟩)
    refine (mem_desiredRoles hoperation hrole).mpr ⟨.inl ?_, fun hremoved => ?_⟩
    · exact (hb.mem_rolesOf (authority_of_mem hmem)).mpr ⟨r', rfl, hr'⟩
    · exact hne (Role.text_injective hremoved.2)

/-- **Coherent roles.**  At every point of every run a subject holds exactly what its
roles permit under the policy in force; the removal of one role leaves what
another one permits; and two subjects with the same roles under the same policy
hold the same, whatever the runs that brought them there. -/
theorem roles_coherent (C : Crypto) (users : List Uuid)
    (environment : Option ModuleInstallationEnvironment) (policy : Policy) (as : List Action) :
    (∀ u p, (reach C users environment policy as).Holds u p ↔
      ∃ r : Role, (reach C users environment policy as).Holds u r.marker ∧
        p ∈ managedRolePermissions (reach C users environment policy as).policy r.text) ∧
    (∀ s p site' v u, ∀ r r' : Role,
      changeManagedIdentityRole C s p (reach C users environment policy as) = .ok (site', v) →
      p.operation = some "remove" → p.targetSubjectId = some u → p.role = some r.text →
      (reach C users environment policy as).Holds u r'.marker → r' ≠ r →
      ∀ q ∈ managedRolePermissions (reach C users environment policy as).policy r'.text,
        site'.Holds u q) ∧
    ∀ C' users' environment' policy' bs u u',
      (reach C' users' environment' policy' bs).policy =
        (reach C users environment policy as).policy →
      (∀ r : Role, (reach C' users' environment' policy' bs).Holds u' r.marker ↔
        (reach C users environment policy as).Holds u r.marker) →
      ∀ p, (reach C' users' environment' policy' bs).Holds u' p ↔
        (reach C users environment policy as).Holds u p := by
  have hcoherent := reach_coherent C users environment policy as
  have hbounded := reach_bounded C users environment policy as
  simp only [managedRolePermissions_text]
  refine ⟨hcoherent, ?_, ?_⟩
  · intro s p site' v u r r' h hoperation htarget hrole hr' hne q hq
    have hkept := removal_keeps h hbounded htarget hrole hr' hne
    have hstep := changeRole_grants h
    have hpolicy : site'.policy = (reach C users environment policy as).policy := by
      obtain ⟨x, -, ⟨-, rfl⟩ | ⟨-, -, -, -, -, -, site₁, t, hset, rfl⟩⟩ := changeRole_eq_ok h
      · rfl
      · exact hset.policy
    refine (hstep.coherent hbounded hcoherent u q).mpr ⟨r', hkept, ?_⟩
    rwa [hpolicy]
  · intro C' users' environment' policy' bs u u' hpolicy hroles p
    rw [hcoherent u p, reach_coherent C' users' environment' policy' bs u' p]
    simp only [hroles, hpolicy]

/-- **Administrator continuity.**  After the first administrator is claimed, at every
point of every run some subject holds the marker of the administrators, by a
grant that is not revoked and not ahead of its revision. -/
theorem administrator_continuity (C : Crypto) (users : List Uuid)
    (environment : Option ModuleInstallationEnvironment) (policy : Policy) (as bs : List Action)
    (s : Statement) (subjectId : Option Uuid) (correlationId : Option String) (site' : Site)
    (v : SubjectAuthority)
    (h : claimInitialAdministrator C s subjectId correlationId
      (reach C users environment policy as) = .ok (site', v)) :
    ∃ g ∈ (run (perform C) bs site').grants.rows,
      g.permission = "console.role.admin" ∧ g.revokedAt = none ∧
        ∃ x, (run (perform C) bs site').authority g.subjectId = some x ∧
          g.grantRevision ≤ x.permissionRevision := by
  have hbounded := reach_bounded C users environment policy as
  have hcommit : perform C (.call s (.claimInitialAdministrator subjectId correlationId))
      (reach C users environment policy as) = site' :=
    perform_of_ok (by simp [Action.exec, Call.exec, h])
  have hclaimed : ∃ u, site'.Holds u Role.admins.marker := by
    obtain ⟨t, g, e, -, -, -, hrows, rfl⟩ := claim_eq_ok h
    refine ⟨v.subjectId, (holds_newGrants (Table.ofRows_rows hrows) v.subjectId _).mpr (.inr ⟨rfl, ?_⟩)⟩
    exact mem_managedRolePermissions.mpr ⟨.admins, rfl, marker_mem.mpr rfl⟩
  have hboth : (run (perform C) bs site').Bounded ∧
      ∃ u, (run (perform C) bs site').Holds u Role.admins.marker :=
    System.run_invariant (I := fun site => site.Bounded ∧ ∃ u, site.Holds u Role.admins.marker)
      (fun a site h => ⟨perform_bounded C a h.1, (perform_grants C a site).administrator h.1 h.2⟩)
      ⟨hcommit ▸ perform_bounded C _ hbounded, hclaimed⟩ bs
  obtain ⟨hb, u, g, hg, -, hmarker, hactive⟩ := hboth
  exact ⟨g, hg, hmarker, hactive, hb g hg hactive⟩

theorem demo_administrator :
    ∃ site' v, claimInitialAdministrator Demo.crypto (second 1) (some alice) (some "correlation")
        (Site.fresh [alice] none .nativeOsaaServingAuthority) = .ok (site', v) ∧
      ∀ bs, ∃ g ∈ (run (perform Demo.crypto) bs site').grants.rows,
        g.permission = "console.role.admin" ∧ g.revokedAt = none := by
  have hrun : ((claimInitialAdministrator Demo.crypto (second 1) (some alice) (some "correlation")
      (Site.fresh [alice] none .nativeOsaaServingAuthority)).toOption.map fun v =>
        decide (v.2.subjectId = alice)) = some true := by
    decide +kernel
  obtain ⟨⟨site', v⟩, hv, -⟩ := exists_of_toOption hrun
  refine ⟨site', v, hv, fun bs => ?_⟩
  obtain ⟨g, hg, hadmin, hactive, -⟩ := administrator_continuity Demo.crypto [alice] none
    .nativeOsaaServingAuthority [] bs (second 1) (some alice) (some "correlation") site' v hv
  exact ⟨g, hg, hadmin, hactive⟩

end ConsoleIdentity
