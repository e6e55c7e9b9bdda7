import OpenSphere.Broker.Steps
import OpenSphere.Properties.Sessions

/-!
# The bootstrap of the first administrator

The broker creates a user, claims the installation for it, and deletes the user if anything goes
wrong after its creation.  A user for whom the claim has committed is not deleted: its authority
refers to it, and Supabase Auth refuses.

But no call completes.  The broker expects a receipt with eleven permissions, as many as the
administrators had when it was written, and the role policy of the last migration gives them
twenty-two.
-/

open Sql
open Js (Value)
open System (Discipline Yields Along)
open ConsoleIdentity (Site managedRolePermissions)
open Authority.Demo (second)

namespace Broker

/-- A call of `bootstrapInitialAdministrator`. -/
structure BootstrapCall where
  body : Value
  requestOrigin : String
  correlationId : Option String

def bootstrapSetting (S : Service) :
    System.Setting Failure Request Request.Result String BootstrapCall World Stamp Empty where
  program c := bootstrapInitialAdministrator S c.body c.requestOrigin c.correlationId
  answer := answer S
  change x := x.elim

/-- The calls after some moves, if none was under way. -/
def bootstrapCalls (S : Service) (ms : List (System.Move BootstrapCall Stamp Empty)) (w : World) :
    System.Pool Failure Request Request.Result String BootstrapCall World :=
  System.run (System.Pool.perform (bootstrapSetting S)) ms ⟨w, []⟩

def Rooted (site : Site) : Prop := ∀ a ∈ site.subjects.rows, a.subjectId ∈ site.users

/-- The calls leave every authority in its place. -/
def bootstrapDiscipline : Discipline Stamp Request World where
  valid w := Rooted w.site ∧ w.site.policy = .nativeOsaaServingAuthority
  rely w w' := ∀ a ∈ w.site.subjects.rows, a ∈ w'.site.subjects.rows
  guarantee w w' := ∀ a ∈ w.site.subjects.rows, a ∈ w'.site.subjects.rows
  allowed _ _ _ := True

theorem bootstrapDiscipline_closed : bootstrapDiscipline.Closed where
  refl _ _ ha := ha
  trans h h' a ha := h' a (h a ha)
  share h := h

section Steps

variable {S : Service} {w : World}

theorem claim_commits {C : ConsoleIdentity.Crypto} {s : Authority.Statement} {site site' : Site}
    {subjectId : Option Uuid} {correlationId : Option String} {v : Authority.SubjectAuthority}
    (h : ConsoleIdentity.claimInitialAdministrator C s subjectId correlationId site = .ok (site', v)) :
    site'.users = site.users ∧ site'.policy = site.policy ∧ v.subjectId ∈ site.users ∧
      site'.subjects.rows = site.subjects.rows ++ [v] := by
  obtain ⟨t, g, e, hmem, -, hinsert, -, rfl⟩ := ConsoleIdentity.claim_eq_ok h
  exact ⟨rfl, rfl, hmem, Table.insert_rows hinsert⟩

theorem claimRecord_commits {C : ConsoleIdentity.Crypto} {s : Authority.Statement}
    {site site' : Site} {subjectId : Option Uuid} {correlationId : Option String}
    {x : BootstrapRecord} (h : claimRecord C s subjectId correlationId site = .ok (site', x)) :
    site'.users = site.users ∧ site'.policy = site.policy ∧
      (∃ v, v.subjectId ∈ site.users ∧ site'.subjects.rows = site.subjects.rows ++ [v]) ∧
      x.permissionCount = (managedRolePermissions site.policy "console-admins").length := by
  simp only [claimRecord, bind_eq_ok, pure_eq_ok] at h
  obtain ⟨⟨site₁, v⟩, hclaim, heq⟩ := h
  cases heq
  obtain ⟨husers, hpolicy, hmem, hrows⟩ := claim_commits hclaim
  exact ⟨husers, hpolicy, ⟨v, hmem, hrows⟩, rfl⟩

/-- A claim keeps to the discipline, and its receipt has twenty-two permissions. -/
theorem claim_receipt (subjectId : Option Uuid) (correlationId : Option String) :
    Yields (answer S) bootstrapDiscipline (fun x _ => x.permissionCount = 22)
      (System.Program.await (Request.claimInitialAdministrator subjectId correlationId)) w := by
  refine System.yields_await (q := Request.claimInitialAdministrator subjectId correlationId)
    fun e w hvalid _ _ => ?_
  -- where the claim commits, its one new row is of a user
  have hcommit : ∀ site x, claimRecord S.crypto e.statement subjectId correlationId w.site =
      .ok (site, x) → bootstrapDiscipline.valid { w with site } ∧
        bootstrapDiscipline.guarantee w { w with site } ∧ x.permissionCount = 22 := by
    intro site x hx
    obtain ⟨husers, hpolicy, ⟨v, hv, hrows⟩, hcount⟩ := claimRecord_commits hx
    refine ⟨⟨fun a ha => ?_, hpolicy.trans hvalid.2⟩, fun a ha => ?_, ?_⟩
    · show a.subjectId ∈ site.users
      rw [husers]
      rcases List.mem_append.mp (hrows ▸ ha) with hold | hnew
      · exact hvalid.1 a hold
      · obtain rfl := List.mem_singleton.mp hnew
        exact hv
    · show a ∈ site.subjects.rows
      rw [hrows]
      exact List.mem_append_left _ ha
    · rw [hcount, hvalid.2]
      decide
  have hcases := e.store_cases w (claimRecord S.crypto e.statement subjectId correlationId)
  generalize hresult : e.store w (claimRecord S.crypto e.statement subjectId correlationId) =
    result at hcases
  have hanswer : answer S e (.claimInitialAdministrator subjectId correlationId) w = result := hresult
  rw [hanswer]
  cases hcases with
  | failed f => exact ⟨hvalid, bootstrapDiscipline_closed.refl w, nofun⟩
  | committed site x hfate hx =>
      obtain ⟨hv, hg, hcount⟩ := hcommit site x hx
      refine ⟨hv, hg, ?_⟩
      rintro _ ⟨⟩
      exact hcount
  | lost t site x hfate hx =>
      obtain ⟨hv, hg, -⟩ := hcommit site x hx
      exact ⟨hv, hg, nofun⟩

/-- A request to Supabase Auth that only changes the users keeps to the discipline. -/
theorem respond_disciplined {α : Type} (e : Stamp) (result : Except Trouble (α × World))
    (hvalid : bootstrapDiscipline.valid w)
    (h : ∀ x w', result = .ok (x, w') → bootstrapDiscipline.valid w' ∧
      bootstrapDiscipline.guarantee w w') :
    bootstrapDiscipline.valid (e.respond w result).2 ∧
      bootstrapDiscipline.guarantee w (e.respond w result).2 := by
  have hcases := e.respond_cases w result
  generalize hresponse : e.respond w result = response at hcases
  cases hcases with
  | refused t => exact ⟨hvalid, bootstrapDiscipline_closed.refl w⟩
  | done x w' hfate hx => exact h x w' hx
  | lost t x w' r hfate hx hunusable => exact h x w' hx

theorem create_disciplined (email : String) (password : Option String) (metadata : Js.Members) :
    Yields (answer S) bootstrapDiscipline (fun _ _ => True)
      (System.Program.await (Request.createUser email password metadata)) w := by
  refine System.yields_await (q := Request.createUser email password metadata) fun e w hvalid _ _ => ?_
  have hstep := respond_disciplined e (w.createUser e.user { email, metadata, enabled := true })
    hvalid ?_
  · exact ⟨hstep.1, hstep.2, fun _ _ => trivial⟩
  · intro user w' h
    obtain ⟨-, -, rfl⟩ := createUser_eq_ok h
    exact ⟨⟨fun a ha => List.mem_cons_of_mem _ (hvalid.1 a ha), hvalid.2⟩, fun a ha => ha⟩

/-- The deletion of a user keeps to the discipline: no authority refers to the user. -/
theorem delete_disciplined (subjectId : String) :
    Yields (answer S) bootstrapDiscipline (fun _ _ => True)
      (System.Program.await (Request.deleteUser subjectId)) w := by
  refine System.yields_await (q := Request.deleteUser subjectId) fun e w hvalid _ _ => ?_
  have hstep := respond_disciplined e (w.deleteUser subjectId) hvalid ?_
  · exact ⟨hstep.1, hstep.2, fun _ _ => trivial⟩
  · intro x w' h
    obtain ⟨u, -, -, hrefers, rfl⟩ := deleteUser_eq_ok h
    refine ⟨⟨fun a ha => ?_, hvalid.2⟩, fun a ha => ha⟩
    refine List.mem_filter.mpr ⟨hvalid.1 a ha, decide_eq_true fun hu => ?_⟩
    have hheld : refersTo w.site u = true := refersTo_subject ha hu
    rw [hrefers] at hheld
    cases hheld

theorem lift_disciplined {α : Type} (x : Except Failure α) :
    Yields (answer S) bootstrapDiscipline (fun _ _ => True) (System.Program.lift x) w :=
  System.yields_lift fun _ _ => trivial

/-- A claim whose receipt has twenty-two permissions is not accepted. -/
theorem claimAdministrator_fails (created : String) (correlationId : Option String) :
    Yields (answer S) bootstrapDiscipline (fun _ _ => False)
      (claimAdministrator created correlationId) w := by
  refine (claim_receipt (castUuid created) correlationId).bind bootstrapDiscipline_closed
    fun claimed w' _ hcount => System.yields_lift fun _ h => ?_
  simp [hcount] at h

theorem deleteInitialAdministrator_disciplined (subjectId : String) :
    Yields (answer S) bootstrapDiscipline (fun _ _ => True)
      (deleteInitialAdministrator S subjectId) w := by
  rw [deleteInitialAdministrator]
  split
  · refine (delete_disciplined subjectId).bind bootstrapDiscipline_closed fun response w' _ _ => ?_
    refine (lift_disciplined _).bind bootstrapDiscipline_closed fun _ w'' _ _ => ?_
    exact System.yields_pure trivial
  · exact System.yields_pure trivial

theorem createInitialAdministrator_disciplined (input : AdministratorInput) :
    Yields (answer S) bootstrapDiscipline (fun _ _ => True)
      (createInitialAdministrator S input) w := by
  refine (lift_disciplined _).bind bootstrapDiscipline_closed fun _ w₁ _ _ => ?_
  refine (create_disciplined _ _ _).bind bootstrapDiscipline_closed fun response w₂ _ _ => ?_
  refine (lift_disciplined _).bind bootstrapDiscipline_closed fun created w₃ _ _ => ?_
  refine (lift_disciplined _).bind bootstrapDiscipline_closed fun _ w₄ _ _ => ?_
  exact System.yields_pure trivial

theorem bootstrap_fails (body : Value) (requestOrigin : String) (correlationId : Option String) :
    Yields (answer S) bootstrapDiscipline (fun _ _ => False)
      (bootstrapInitialAdministrator S body requestOrigin correlationId) w := by
  refine (lift_disciplined _).bind bootstrapDiscipline_closed fun _ w₁ _ _ => ?_
  refine (lift_disciplined _).bind bootstrapDiscipline_closed fun input w₂ _ _ => ?_
  refine (createInitialAdministrator_disciplined input).bind bootstrapDiscipline_closed
    fun created w₃ _ _ => ?_
  have hclaim := (claimAdministrator_fails (S := S) created correlationId (w := w₃)).tryCatch
    bootstrapDiscipline_closed (f := fun error => do
      (deleteInitialAdministrator S created).tryCatch fun _ => pure ()
      System.Program.throw error) fun error w₄ _ => ?_
  · exact hclaim.bind bootstrapDiscipline_closed fun _ _ _ h => h.elim
  · refine ((deleteInitialAdministrator_disciplined created).tryCatch bootstrapDiscipline_closed
      fun _ _ _ => System.yields_pure trivial).bind bootstrapDiscipline_closed fun _ _ _ _ => ?_
    exact System.yields_throw

end Steps

theorem bootstrap_ensures (S : Service) :
    (bootstrapSetting S).Ensures bootstrapDiscipline fun _ r _ => ∀ x, r = .ok x → False where
  closed := bootstrapDiscipline_closed
  stable _ h := h
  program c _ _ := System.yields_iff.mp (bootstrap_fails c.body c.requestOrigin c.correlationId)
  change x := x.elim

/-- **The bootstrap of the first administrator.**  In every run of calls, with any failures of
the database and of Supabase Auth and any crashes, every subject with authority is a user then
and at any later time.  But no call returns, whatever its input is and however its requests are
answered. -/
theorem bootstrap_never_completes (S : Service) (w : World)
    (hpolicy : w.site.policy = .nativeOsaaServingAuthority) (hrooted : Rooted w.site)
    (ms ms' : List (System.Move BootstrapCall Stamp Empty)) :
    Rooted (bootstrapCalls S ms w).world.site ∧
    (∀ a ∈ (bootstrapCalls S ms w).world.site.subjects.rows,
      a.subjectId ∈ (bootstrapCalls S (ms ++ ms') w).world.site.users) ∧
    ∀ task ∈ (bootstrapCalls S ms w).tasks, ∀ x, task.rest ≠ .pure x := by
  have hstart : System.Pool.Ensured (bootstrapSetting S) bootstrapDiscipline
      (fun _ r _ => ∀ x, r = .ok x → False) ⟨w, []⟩ :=
    ⟨⟨hrooted, hpolicy⟩, fun task htask => absurd htask List.not_mem_nil⟩
  have hmoves : ∀ (ms : List (System.Move BootstrapCall Stamp Empty)) s,
      Along (System.Pool.perform (bootstrapSetting S)) (System.Move.Allowed bootstrapDiscipline)
        ms s :=
    Along.trivial fun m s => by cases m <;> simp [System.Move.Allowed, bootstrapDiscipline]
  have hreached := hstart.run (bootstrap_ensures S) (hmoves ms _)
  refine ⟨hreached.world.1, fun a ha => ?_, ?_⟩
  · have hkept := hreached.relied (bootstrap_ensures S) (hmoves ms' _) a ha
    have hlater := (hstart.run (bootstrap_ensures S) (hmoves (ms ++ ms') _)).world.1
    refine hlater a ?_
    rwa [System.run_append]
  · rintro ⟨c, rest⟩ htask x rfl
    exact hreached.returned htask x rfl

/-! ## An installation -/

namespace Demo

def envelope : String := "v1.aaaaaaaaaa.bbbbbbbbbb."

def service : Service where
  toLowerCase t := t
  idempotent _ := rfl
  encrypt _ t := envelope ++ t
  decrypt c := .ok (String.ofList ((chars c).drop 25))
  decrypt_encrypt iv t _ _ := by
    rw [chars_eq, String.toList_append, List.drop_left' (by decide), String.ofList_toList]
  crypto := ConsoleIdentity.Demo.crypto
  origin := "https://console.local"
  adminKey := true
  decodeToken _ := none
  recoveryLink _ _ := .ok "/auth/v1/verify"

/-- The identifier of a user, as Supabase Auth generates it. -/
def root : Uuid := ⟨0x11111111111141118111111111111111⟩

def account : Account := ⟨"", .nil, true⟩

/-- A Console whose database has all migrations and no row. -/
def fresh : World := ⟨Site.fresh [] none .nativeOsaaServingAuthority, fun _ => account, []⟩

def stamp (s : Authority.Statement) : Stamp where
  fate := .answered
  statement := s
  user := root
  tokens := ⟨"", "", ""⟩
  link := .null
  bearer := .error authorityUnavailable
  clock := 0
  bytes := []

def form : BootstrapCall where
  body := .ofList [("username", .string "root"), ("displayName", .string "Root"),
    ("email", .string "root@console.local"), ("password", .string "correct horse"),
    ("passwordConfirm", .string "correct horse")]
  requestOrigin := "https://console.local"
  correlationId := some "correlation"

def bootstrap : List (System.Move BootstrapCall Stamp Empty) :=
  [.start form, .step 0 (stamp (second 1)), .step 0 (stamp (second 2)), .step 0 (stamp (second 3))]

end Demo

theorem bootstrapped_user_stays :
    (bootstrapCalls Demo.service Demo.bootstrap Demo.fresh).world.site.subjects.rows.map
      (·.subjectId) = [Demo.root] ∧
    ∀ ms, Demo.root ∈
      (bootstrapCalls Demo.service (Demo.bootstrap ++ ms) Demo.fresh).world.site.users := by
  have hsubjects : (bootstrapCalls Demo.service Demo.bootstrap
      Demo.fresh).world.site.subjects.rows.map (·.subjectId) = [Demo.root] := by decide +kernel
  refine ⟨hsubjects, fun ms => ?_⟩
  have hkept := (bootstrap_never_completes Demo.service Demo.fresh rfl nofun Demo.bootstrap ms).2.1
  obtain ⟨a, ha, hroot⟩ := List.mem_map.mp (hsubjects ▸ List.mem_singleton_self Demo.root)
  exact hroot ▸ hkept a ha

/-- A valid call on an empty database whose requests are all answered fails. -/
theorem valid_bootstrap_fails :
    initialAdministratorInput Demo.service.toLocale Demo.form.body =
      .ok ⟨"root", "Root", "root@console.local", "correct horse"⟩ ∧
    (∀ e, .step 0 e ∈ Demo.bootstrap → e.fate = .answered) ∧
    (bootstrapCalls Demo.service Demo.bootstrap Demo.fresh).tasks.map System.Task.result =
      [some (.error (fail "AuthorityUnavailable"
        "initial administrator authority returned an invalid receipt" 503))] := by
  refine ⟨by decide +kernel, ?_, by decide +kernel⟩
  intro e he
  simp only [Demo.bootstrap, List.mem_cons, List.not_mem_nil, or_false] at he
  rcases he with h | h | h | h <;> cases h <;> rfl

end Broker
