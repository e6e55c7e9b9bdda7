import OpenSphere.Broker.System
import OpenSphere.Identity.Commits

/-!
# What a request can do

`Stores` says what a statement of the store can leave and answer, and `Responds` what a request
to Supabase Auth can.  A proof about a request takes the cases of one of the two and never looks
at the fates.
-/

open Sql
open Js (Value)
open ConsoleIdentity (Site)

namespace Broker

variable {α : Type} {e : Stamp} {w : World}
variable {subjectId : String} {w' : World} {user : User}

inductive Stamp.Stores (e : Stamp) (w : World) (run : Site → Except SqlError (Site × α)) :
    Except Failure α × World → Prop where
  | failed (f : Failure) : e.Stores w run (.error f, w)
  | committed (site : Site) (x : α) : e.fate = .answered → run w.site = .ok (site, x) →
      e.Stores w run (.ok x, { w with site })
  | lost (t : Option Trouble) (site : Site) (x : α) : e.fate = .lost t →
      run w.site = .ok (site, x) → e.Stores w run (.error authorityUnavailable, { w with site })

theorem Stamp.store_cases (e : Stamp) (w : World) (run : Site → Except SqlError (Site × α)) :
    e.Stores w run (e.store w run) := by
  cases hfate : e.fate with
  | down t =>
      rw [Stamp.store, hfate]
      exact .failed _
  | answered =>
      cases hrun : run w.site with
      | ok v =>
          rw [Stamp.store, hfate, hrun]
          exact .committed v.1 v.2 hfate hrun
      | error x =>
          rw [Stamp.store, hfate, hrun]
          exact .failed _
  | lost t =>
      cases hrun : run w.site with
      | ok v =>
          rw [Stamp.store, hfate, hrun]
          exact .lost t v.1 v.2 hfate hrun
      | error x =>
          rw [Stamp.store, hfate, hrun]
          exact .failed _

def Response.Unusable (r : Response α) : Prop := ∀ x, r ≠ .document x

theorem request_eq_ok {o : Options} {r : Response α} {x : α} :
    request o r = .ok x ↔ r = .document x := by
  cases r <;> simp [request]

inductive Stamp.Responds (e : Stamp) (w : World) (result : Except Trouble (α × World)) :
    Except Failure (Response α) × World → Prop where
  | refused (t : Trouble) : e.Responds w result (.ok (.trouble t), w)
  | done (x : α) (w' : World) : e.fate = .answered → result = .ok (x, w') →
      e.Responds w result (.ok (.document x), w')
  | lost (t : Option Trouble) (x : α) (w' : World) (r : Response α) : e.fate = .lost t →
      result = .ok (x, w') → r.Unusable → e.Responds w result (.ok r, w')

theorem Stamp.respond_cases (e : Stamp) (w : World) (result : Except Trouble (α × World)) :
    e.Responds w result (e.respond w result) := by
  cases hfate : e.fate with
  | down t =>
      simp only [Stamp.respond, hfate]
      exact .refused t
  | answered =>
      cases result with
      | ok v =>
          simp only [Stamp.respond, hfate]
          exact .done v.1 v.2 hfate rfl
      | error t =>
          simp only [Stamp.respond, hfate]
          exact .refused t
  | lost t =>
      cases result with
      | ok v =>
          cases t with
          | none =>
              simp only [Stamp.respond, hfate]
              exact .lost none v.1 v.2 _ hfate rfl nofun
          | some t =>
              simp only [Stamp.respond, hfate]
              exact .lost (some t) v.1 v.2 _ hfate rfl nofun
      | error t' =>
          simp only [Stamp.respond, hfate]
          exact .refused t'

/-! ## Users -/

theorem createUser_eq_ok {u : Uuid} {account : Account}
    (h : w.createUser u account = .ok (user, w')) :
    u ∉ w.site.users ∧ user = { account with id := u } ∧ w' = { w with
      site := { w.site with users := u :: w.site.users }
      account := Function.update w.account u account } := by
  rw [World.createUser] at h
  split at h
  next hmem => cases h
  next hmem =>
    cases h
    exact ⟨hmem, rfl, rfl⟩

def World.userOf (w : World) (u : Uuid) : User := { w.account u with id := u }

theorem user?_eq_some (h : w.user? subjectId = some user) :
    ∃ u, castUuid subjectId = some u ∧ u ∈ w.site.users ∧ user = w.userOf u := by
  rw [World.user?] at h
  split at h
  next u hu =>
    split at h
    next hmem =>
      cases h
      exact ⟨u, hu, hmem, rfl⟩
    next => cases h
  next => cases h

theorem updateUser_eq_ok {patch : Patch}
    (h : w.updateUser subjectId patch = .ok (user, w')) :
    ∃ u, castUuid subjectId = some u ∧ u ∈ w.site.users ∧ user = (w.userOf u).update patch ∧
      w' = { w with account := Function.update w.account u ((w.userOf u).update patch).toAccount } := by
  rw [World.updateUser] at h
  split at h
  next found hfound =>
    obtain ⟨u, hu, hmem, rfl⟩ := user?_eq_some hfound
    cases h
    exact ⟨u, hu, hmem, rfl, rfl⟩
  next => cases h

theorem deleteUser_eq_ok {x : Value}
    (h : w.deleteUser subjectId = .ok (x, w')) :
    ∃ u, castUuid subjectId = some u ∧ u ∈ w.site.users ∧ refersTo w.site u = false ∧
      w' = { w with site := { w.site with users := w.site.users.filter (· ≠ u) } } := by
  rw [World.deleteUser] at h
  split at h
  next found hfound =>
    obtain ⟨u, hu, hmem, rfl⟩ := user?_eq_some hfound
    split at h
    next => cases h
    next hrefers =>
      cases h
      exact ⟨u, hu, hmem, Bool.eq_false_iff.mpr hrefers, rfl⟩
  next => cases h

theorem refersTo_subject {site : Site} {a : Authority.SubjectAuthority} {u : Uuid}
    (ha : a ∈ site.subjects.rows) (hu : a.subjectId = u) : refersTo site u = true := by
  have hany : site.subjects.rows.any (·.subjectId == u) = true :=
    List.any_eq_true.mpr ⟨a, ha, beq_iff_eq.mpr hu⟩
  simp only [refersTo, hany, Bool.true_or]

end Broker
