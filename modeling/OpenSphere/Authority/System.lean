import OpenSphere.Authority.Gitea
import OpenSphere.Authority.Verify
import OpenSphere.System.Run

/-!
# The authority as a system

Every caller reaches the tables through the stored functions only.  An action
is a call of one of them, with any arguments and at any time, or a change made
by the functions of identity and audit that no operation takes part in.  The
identity functions add subjects and change sessions, grants and revisions, but
never the person a subject stands for.

A call is one transaction: `perform` is the database after it commits, and the
database before it when it raises.
-/

open Sql

namespace Authority

inductive Call where
  | acceptOperation (p : AcceptArgs)
  | acceptDevelopmentModuleInstall (p : AcceptArgs)
  | acceptGiteaModule (input : Option Jsonb)
  | approveOperation (p : ApproveArgs)
  | approveDevelopmentModuleInstall (p : ApproveArgs)
  | claimOwnerOperation (p : ClaimArgs)
  | renewOwnerClaim (p : RenewArgs)
  | applyRevocation (p : Bound)
  | assertInstallNotRevoked (p : Bound)
  | applyInstallRegistration (p : InstallArgs)
  | applyRemoveRegistration (p : RemoveArgs)
  | recordInstallObservation (p : ObserveArgs)
  | recordRemoveObservation (p : ObserveArgs)
  | recordExecutionFailure (p : FailureArgs)
  | verifyExtensionOperation (p : VerifyArgs)
  | recordGiteaProposal (p : GiteaArgs)
  | recordGiteaMerge (p : GiteaArgs)
  | recordRegistryCredentialResult (p : CredentialArgs)

def Call.exec (D : Digest) (s : Statement) (db : Db) : Call → Except SqlError Db
  | .acceptOperation p => (·.1) <$> Authority.acceptOperation D s p db
  | .acceptDevelopmentModuleInstall p => (·.1) <$> Authority.acceptDevelopmentModuleInstall D s p db
  | .acceptGiteaModule p => (·.1) <$> Authority.acceptGiteaModule D s p db
  | .approveOperation p => (·.1) <$> Authority.approveOperation D s p db
  | .approveDevelopmentModuleInstall p =>
      (·.1) <$> Authority.approveDevelopmentModuleInstall D s p db
  | .claimOwnerOperation p => (·.1) <$> Authority.claimOwnerOperation D s p db
  | .renewOwnerClaim p => (·.1) <$> Authority.renewOwnerClaim s p db
  | .applyRevocation p => (·.1) <$> Authority.applyRevocation D s p db
  | .assertInstallNotRevoked p => (fun _ => db) <$> Authority.assertInstallNotRevoked s p db
  | .applyInstallRegistration p => (·.1) <$> Authority.applyInstallRegistration D s p db
  | .applyRemoveRegistration p => (·.1) <$> Authority.applyRemoveRegistration D s p db
  | .recordInstallObservation p => (·.1) <$> Authority.recordInstallObservation D s p db
  | .recordRemoveObservation p => (·.1) <$> Authority.recordRemoveObservation D s p db
  | .recordExecutionFailure p => (·.1) <$> Authority.recordExecutionFailure D s p db
  | .verifyExtensionOperation p => (·.1) <$> Authority.verifyExtensionOperation D s p db
  | .recordGiteaProposal p => (·.1) <$> Authority.recordGiteaProposal D s p db
  | .recordGiteaMerge p => (·.1) <$> Authority.recordGiteaMerge D s p db
  | .recordRegistryCredentialResult p =>
      (·.1) <$> Authority.recordRegistryCredentialResult D s p db

def Identity.keepsPersons (i j : Identity) : Bool :=
  i.subjects.rows.all fun a =>
    (j.subjects.lookup (some a.subjectId)).any fun b => decide (b.personRef = a.personRef)

inductive Action where
  /-- A call of an operation function. -/
  | call (s : Statement) (c : Call)
  /-- A change of subjects, sessions, grants or the recorded site. -/
  | identity (next : Identity)
  /-- An audit event of no operation. -/
  | audit (s : Statement) (a : EventArgs)

def perform (D : Digest) : Action → Db → Db
  | .call s c, db => ((c.exec D s db).toOption).getD db
  | .identity next, db => if db.identity.keepsPersons next then { db with identity := next } else db
  | .audit s a, db => ((appendEvent D s db { a with operationId := none }).toOption).getD db

/-- The database after a list of actions, in a fresh installation. -/
def reach (D : Digest) (i : Identity) (as : List Action) : Db :=
  System.run (perform D) as (Db.fresh i)

/-- A call leaves the database as it is, or commits. -/
theorem perform_call_cases (D : Digest) (s : Statement) (c : Call) (db : Db) :
    perform D (.call s c) db = db ∨ c.exec D s db = .ok (perform D (.call s c) db) := by
  cases h : c.exec D s db with
  | error e => exact .inl (by simp [perform, h, Except.toOption])
  | ok db' => exact .inr (by simp [perform, h, Except.toOption])

end Authority
