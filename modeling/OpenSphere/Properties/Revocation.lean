import OpenSphere.Properties.Fencing

/-!
# Revocation

Once an image is revoked no installation of it goes on: it is not applied, not
observed and not verified.  Application checks the image its caller names, not
the image of the operation, and a NULL names none.  So the statement is about
runs in which every application of a revoked installation names its image; the
run after it shows what a NULL does.

The second part is about the revocations themselves.  Two operations may revoke
one image, and the table keeps the row of the first.  Verification looks the row
up by its operation and does not find that of the second.
-/

open Sql
open System (Along run)

namespace Authority

variable {db : Db} {o : Operation} {x : ExecutionReceipt} {p : Bound} {w : Scene}

/-! ## Installations of a revoked image -/

/-- An application of an installation names the image, unless it is not revoked. -/
def namesImage : Action → Db → Bool
  | .call _ (.applyInstallRegistration p), db =>
      p.targetRef.isSome ||
        (db.operations.lookup p.operationId).all fun o => !db.isRevoked (some o.targetRef)
  | _, _ => true

/-- A revocation is applied to an image that is not revoked yet. -/
def firstRevocation : Action → Db → Bool
  | .call _ (.applyRevocation p), db =>
      (db.operations.lookup p.operationId).all fun o => !db.isRevoked (some o.targetRef)
  | _, _ => true

/-- A step on the installation of a revoked image, which names the image if it
applies it. -/
theorem Case.Step.frozen {l : Label} {c c' : Case} (h : Case.Step w l c c')
    {o' : Operation} (ho' : c'.op = some o') (haction : o'.actionId = "console.extension.install")
    (hrevoked : w.revoked o'.targetRef = true)
    (hnamed : ∀ p o r, l = .apply "console.extension.install" p → p.targetRef = none →
      c.op = some o → r ∈ c.outbox → p.operationId = some r.operationId →
      w.revoked o.targetRef = false) :
    (o'.state ∈ [.applied, .verified] → ∃ o, c.op = some o ∧ o.state = o'.state) ∧
      ∀ x ∈ c'.receipts, x.phase = .verified → x ∈ c.receipts := by
  have hself : ∀ x ∈ c.receipts, x.phase = .verified → x ∈ c.receipts := fun _ hx _ => hx
  cases h with
  | accept hop hinit =>
      cases ho'
      refine ⟨fun hstate => ?_, hself⟩
      rw [hinit.state] at hstate
      split at hstate <;> simp at hstate
  | approve =>
      cases ho'
      exact ⟨fun hstate => by simp at hstate, hself⟩
  | claim hop =>
      cases ho'
      refine ⟨fun hstate => ⟨_, hop, ?_⟩, hself⟩
      unfold Operation.submit at hstate ⊢
      split
      next hif => simp [if_pos hif] at hstate
      next => rfl
  | renew | propose => exact ⟨fun _ => ⟨o', ho', rfl⟩, hself⟩
  | @apply _ o r x e p actionId rows revocations hop hrow hfence hact hstate hx heffect =>
      cases ho'
      have hlater := o.reconcile_later w.s
      have hinstall : o.actionId = "console.extension.install" := hlater.actionId.symm.trans haction
      have hrevoked' : w.revoked o.targetRef = true := by
        rw [← hlater.targetRef]
        exact hrevoked
      cases heffect with
      | revocation h | alreadyRevoked h | removal h =>
          exact absurd (h.symm.trans hinstall) (by decide)
      | install h hr hnot =>
          exfalso
          cases htarget : p.targetRef with
          | none =>
              have hfalse := hnamed p o r (by rw [← hact, hinstall]) htarget hop hrow.1
                hfence.operationId
              exact absurd (hrevoked'.symm.trans hfalse) nofun
          | some t =>
              obtain ⟨rfl, hfalse⟩ := hnot t htarget
              exact absurd (hrevoked'.symm.trans hfalse) nofun
  | observe hop hrow hfence hstate hx hobserved =>
      cases ho'
      have hlater := hobserved.later
      rw [hlater.targetRef] at hrevoked
      rw [hlater.actionId] at haction
      cases hobserved with
      | install h htarget hvalid hmatch hevidence hnot =>
          exact absurd (hrevoked.symm.trans hnot) nofun
      | removal h => exact absurd (h.symm.trans haction) (by decide)
  | @fail _ _ r x _ p hop hrow hfence hmatch hx =>
      cases ho'
      refine ⟨fun hstate => ?_, fun y hy hphase => ?_⟩
      · change p.state ∈ _ at hstate
        unfold FailureArgs.state at hstate
        split at hstate <;> simp at hstate
      · rcases List.mem_append.mp hy with hy | hy
        · exact hy
        · rw [List.mem_singleton.mp hy, hx.phase] at hphase
          unfold FailureArgs.phase at hphase
          split at hphase <;> cases hphase
  | verify hop hstate hevidence =>
      cases ho'
      exact absurd (hrevoked.symm.trans (hevidence.notRevoked haction)) nofun
  | merge =>
      cases ho'
      exact ⟨fun hstate => by simp [Operation.merge] at hstate, hself⟩
  | credential hop hbroker =>
      cases ho'
      exact absurd (haction ▸ List.mem_cons_self ..) (outsideCredentialBroker_passed hbroker).2.1

/-- From one database to a later one, no installation of an image revoked in the
first has become Applied or Verified, and none has a new Verified receipt. -/
def Db.Frozen (db db' : Db) : Prop :=
  ∀ o' ∈ db'.operations.rows, o'.actionId = "console.extension.install" →
    db.isRevoked (some o'.targetRef) = true →
    (o'.state ∈ [.applied, .verified] →
      ∃ o ∈ db.operations.rows, o.operationId = o'.operationId ∧ o.state = o'.state) ∧
    ∀ x ∈ db'.receipts.rows, x.operationId = o'.operationId → x.phase = .verified →
      x ∈ db.receipts.rows

theorem Db.mem_case_receipts :
    x ∈ (db.case x.operationId).receipts ↔ x ∈ db.receipts.rows := by
  simp [Db.case]

/-- The operation a call on an outbox row of the case names. -/
theorem Db.case_lookup {id : Uuid} {r : Outbox} {k : Option Uuid}
    (ho : (db.case id).op = some o) (hr : r ∈ (db.case id).outbox) (hk : k = some r.operationId) :
    db.operations.lookup k = some o := by
  have hrid : r.operationId = id := of_decide_eq_true (List.mem_filter.mp hr).2
  rw [hk, hrid]
  exact ho

theorem label_eq_install {c : Call}
    (h : c.label = .apply "console.extension.install" p) :
    ∃ q : InstallArgs, c = .applyInstallRegistration q ∧ q.toBound = p := by
  cases c <;> simp [Call.label] at h
  exact ⟨_, rfl, h⟩

theorem perform_frozen {D : Digest} {a : Action} (hnames : namesImage a db = true) :
    db.Frozen (perform D a db) := by
  intro o' ho' haction hrevoked
  have hop' := Db.case_op.mpr ho'
  rcases perform_cases D a db with ⟨hsame, -⟩ | ⟨s, c, rfl, hcommits⟩
  · refine ⟨fun _ => ?_, fun x hx hid _ => ?_⟩
    · rw [hsame] at hop'
      exact ⟨o', Db.case_op.mp hop', rfl, rfl⟩
    · rw [← Db.mem_case_receipts, hsame] at hx
      exact Db.mem_case_receipts.mp hx
  · have hcase := hcommits.cases.relation
      (Q := fun k k' => k = db.case o'.operationId → k'.op = some o' →
        (o'.state ∈ [.applied, .verified] → ∃ o, k.op = some o ∧ o.state = o'.state) ∧
          ∀ x ∈ k'.receipts, x.phase = .verified → x ∈ k.receipts)
      (fun k _ hk => ⟨fun _ => ⟨o', hk, rfl⟩, fun _ hx _ => hx⟩)
      (fun id k' hstep hk hk' => ?_) o'.operationId rfl hop'
    · refine ⟨fun hstate => ?_, fun x hx hid hphase => ?_⟩
      · obtain ⟨o, ho, hsame⟩ := hcase.1 hstate
        obtain ⟨hmem, hid⟩ := Db.case_op_eq_some.mp ho
        exact ⟨o, hmem, hid, hsame⟩
      · rw [← Db.mem_case_receipts, hid] at hx
        exact (List.mem_filter.mp (hcase.2 x hx hphase)).1
    · refine hstep.frozen hk' haction hrevoked fun p o r hlabel htarget ho hr hid => ?_
      obtain ⟨q, rfl, rfl⟩ := label_eq_install hlabel
      have hlookup : db.operations.lookup q.operationId = some o := Db.case_lookup ho hr hid
      show db.isRevoked (some o.targetRef) = false
      simpa [namesImage, htarget, hlookup] using hnames

theorem Db.Frozen.trans {db' db'' : Db} (h : db.Frozen db') (h' : db'.Frozen db'')
    (hlater : db.Later db') (hlater' : db'.Later db'') (hinv : ∀ id, (db'.case id).Inv) :
    db.Frozen db'' := by
  intro o'' ho'' haction hrevoked
  obtain ⟨happlied', hreceipts'⟩ := h' o'' ho'' haction (hlater.revoked _ hrevoked)
  -- the operation as it was in between
  have hbetween : ∀ o' ∈ db'.operations.rows, o'.operationId = o''.operationId →
      o'.actionId = "console.extension.install" ∧ db.isRevoked (some o'.targetRef) = true := by
    intro o' ho' hid
    obtain ⟨q, hq, hl⟩ := hlater'.operation ho'
    have hsame : q = o'' := Table.eq_of_key_eq hq ho'' (hl.operationId.trans hid)
    subst hsame
    exact ⟨hl.actionId.symm.trans haction, by rw [← hl.targetRef]; exact hrevoked⟩
  refine ⟨fun hstate => ?_, fun x hx hid hphase => ?_⟩
  · obtain ⟨o', ho', hid', hsame'⟩ := happlied' hstate
    obtain ⟨haction', hrevoked'⟩ := hbetween o' ho' hid'
    obtain ⟨o, ho, hid, hsame⟩ := (h o' ho' haction' hrevoked').1 (by rw [hsame']; exact hstate)
    exact ⟨o, ho, hid.trans hid', hsame.trans hsame'⟩
  · have hx' := hreceipts' x hx hid hphase
    -- a receipt belongs to a stored operation
    cases hop : (db'.case x.operationId).op with
    | none =>
        have hmem := Db.mem_case_receipts.mpr hx'
        rw [(hinv x.operationId).empty hop] at hmem
        exact absurd hmem (List.not_mem_nil)
    | some o' =>
        obtain ⟨ho', hid'⟩ := Db.case_op_eq_some.mp hop
        obtain ⟨haction', hrevoked'⟩ := hbetween o' ho' (hid'.trans hid)
        exact (h o' ho' haction' hrevoked').2 x hx' hid'.symm hphase

/-- **Revocation safety.**  In every run in which each application of an
installation names its image, unless that is not revoked, nothing happens to the
installations of an image from the moment it is revoked on: none becomes Applied
or Verified, and none gets a Verified receipt. -/
theorem revocation_safety (D : Digest) (i : Identity) (as bs : List Action)
    (h : Along (perform D) (fun a db => namesImage a db = true) (as ++ bs) (Db.fresh i)) :
    (reach D i as).Frozen (reach D i (as ++ bs)) := by
  obtain ⟨-, hbs⟩ := Along.append.mp h
  -- along the continuation: later, and frozen since the revocation
  have hboth : (reach D i as).Later (run (perform D) bs (reach D i as)) ∧
      (reach D i as).Frozen (run (perform D) bs (reach D i as)) ∧
      ∀ id, ((run (perform D) bs (reach D i as)).case id).Inv := by
    refine Along.invariant (I := fun db : Db => (reach D i as).Later db ∧
      (reach D i as).Frozen db ∧ ∀ id, (db.case id).Inv) ?_ hbs ⟨.refl _, ?_, reach_inv D i as⟩
    · rintro a db ⟨hlater, hfrozen, hinv⟩ hnames
      have hlater' := perform_later D a db
      refine ⟨hlater.trans hlater', hfrozen.trans (perform_frozen hnames) hlater hlater' hinv, ?_⟩
      rcases perform_cases D a db with ⟨hsame, -⟩ | ⟨s, c, rfl, hcommits⟩
      · rw [hsame]
        exact hinv
      · exact hcommits.cases.forall (fun _ _ => Case.Step.inv) hinv
    · exact fun o ho _ _ => ⟨fun _ => ⟨o, ho, rfl, rfl⟩, fun x hx _ _ => hx⟩
  rw [reach_append]
  exact hboth.2.1

namespace Demo

def revocationPlan : Jsonb :=
  .object [
    ("schemaVersion", .ofText "1.0"),
    ("authority", .ofText "ConsoleExtensionRevocation"),
    ("image", .ofText image),
    ("replacementImage", jsonText none)]

def revoke (key : String) : AcceptArgs :=
  request "console.extension.revocation.create" key revocationPlan

/-- The worker's report of the recorded revocation. -/
def applyRevoke (q : ClaimRef) : Bound := ⟨q, some image, some otherDigest⟩

/-- The image is revoked, and then an installation of it is accepted and claimed. -/
def revokedRun : List Action := [
  .call (second 1) (.acceptOperation (revoke "revoke-1")),
  .call (second 2) (.claimOwnerOperation claim),
  .call (second 3) (.applyRevocation (applyRevoke (firstClaim 1 ⟨101⟩))),
  .call (second 4) (.acceptOperation install),
  .call (second 5) (.claimOwnerOperation claim)]

/-- The application of the installation, for the image the worker names. -/
def applyRevoked (target : Option String) : List Action :=
  [.call (second 6) (.applyInstallRegistration (applyInstall (firstClaim 4 ⟨104⟩) target))]

theorem revoked_runs :
    (Along (perform digest) (fun a db => firstRevocation a db = true) (revokedRun.take 3)
        (Db.fresh site) ∧
      ∃ o ∈ (reach digest site (revokedRun.take 3)).operations.rows,
        o.operationId = ⟨101⟩ ∧ o.actionId = "console.extension.revocation.create" ∧
          o.state = .applied) ∧
    (reach digest site revokedRun).isRevoked (some image) = true ∧
      (∀ o ∈ (reach digest site revokedRun).operations.rows,
        o.operationId = ⟨104⟩ → o.state ≠ .applied) ∧
      ∃ o ∈ (reach digest site (revokedRun ++ applyRevoked none)).operations.rows,
        o.operationId = ⟨104⟩ ∧ o.actionId = "console.extension.install" ∧
          o.targetRef = image ∧ o.state = .applied := by
  rw [reach_append]
  decide +kernel

end Demo

theorem revocation_safety_named :
    (reach Demo.digest Demo.site Demo.revokedRun).isRevoked (some Demo.image) = true ∧
      (reach Demo.digest Demo.site Demo.revokedRun).Frozen
        (reach Demo.digest Demo.site (Demo.revokedRun ++ Demo.applyRevoked (some Demo.image))) :=
  ⟨Demo.revoked_runs.2.1, revocation_safety Demo.digest Demo.site Demo.revokedRun
    (Demo.applyRevoked (some Demo.image)) (by decide)⟩

/-- An application that names no image goes through for a revoked one. -/
theorem revoked_install_applied :
    ¬ (reach Demo.digest Demo.site Demo.revokedRun).Frozen
      (reach Demo.digest Demo.site (Demo.revokedRun ++ Demo.applyRevoked none)) := by
  obtain ⟨hrevoked, hbefore, o', ho', hid, haction, htarget, hstate⟩ := Demo.revoked_runs.2
  intro hfrozen
  have happlied := (hfrozen o' ho' haction (by rw [htarget]; exact hrevoked)).1 (by simp [hstate])
  obtain ⟨o, ho, hsame, hstate'⟩ := happlied
  exact hbefore o ho (hsame.trans hid) (hstate'.trans hstate)

/-! ## Revocations of a revoked image -/

structure Recorded (o : Operation) (v : Revocation) (x : ExecutionReceipt) : Prop where
  imageRef : v.imageRef = o.targetRef
  payloadDigest : v.payloadDigest = o.payloadDigest
  actionVersion : v.actionVersion = o.actionVersion
  ownerRef : x.ownerRef = "C_EXT"
  phase : x.phase = .applied
  claimEpoch : x.claimEpoch = v.claimEpoch
  evidence : x.evidence = revocationEvidence o (some v.claimEpoch) true

def Case.RevocationRecorded (c : Case) : Prop :=
  ∀ o, c.op = some o → o.actionId = "console.extension.revocation.create" → o.state = .applied →
    ∃ v ∈ c.revocations, ∃ x ∈ c.receipts, Recorded o v x

theorem Recorded.apply {o' : Operation} {n : Int}
    (hlater : o.Later o') (hepoch : p.claimEpoch = some n) (hx : x.For o p.toClaimRef .applied)
    (hevidence : x.evidence = revocationEvidence o p.claimEpoch true) :
    Recorded o' (newRevocation w.s o n) x where
  imageRef := hlater.targetRef.symm
  payloadDigest := hlater.payloadDigest.symm
  actionVersion := hlater.actionVersion.symm
  ownerRef := hx.ownerRef
  phase := hx.phase
  claimEpoch := Option.some.inj (hx.claimEpoch.symm.trans hepoch)
  evidence := by
    rw [hevidence, hepoch, revocationEvidence, revocationEvidence, hlater.targetRef,
      hlater.executionPlan, hlater.operationId]
    rfl

theorem Case.Step.revocationRecorded {l : Label} {c c' : Case}
    (h : Case.Step w l c c') (hc : c.RevocationRecorded)
    (hfirst : ∀ p o r, l = .apply "console.extension.revocation.create" p → c.op = some o →
      r ∈ c.outbox → p.operationId = some r.operationId → w.revoked o.targetRef = false) :
    c'.RevocationRecorded := by
  have hlater := h.later
  -- nothing recorded is lost
  have hkept : ∀ o', c.op = some o' → o'.actionId = "console.extension.revocation.create" →
      o'.state = .applied → ∃ v ∈ c'.revocations, ∃ x ∈ c'.receipts, Recorded o' v x := by
    intro o' ho' haction hstate
    obtain ⟨v, hv, x, hx, hrecorded⟩ := hc o' ho' haction hstate
    exact ⟨v, hlater.revocations v hv, x, hlater.receipts x hx, hrecorded⟩
  intro o' ho' haction hstate
  cases h with
  | accept hop hinit =>
      cases ho'
      rw [hinit.state] at hstate
      split at hstate <;> cases hstate
  | approve | verify | merge =>
      cases ho'
      cases hstate
  | claim hop =>
      cases ho'
      unfold Operation.submit at hstate haction ⊢
      split at hstate
      next => cases hstate
      next hif =>
        rw [if_neg hif] at haction ⊢
        exact hkept _ hop haction hstate
  | renew | propose => exact hkept o' ho' haction hstate
  | @apply _ o r x e p actionId rows revocations hop hrow hfence hact _ hx heffect =>
      cases ho'
      have hrequest : o.Later ((o.reconcile w.s).apply w.s x.evidence) :=
        (o.reconcile_later w.s).trans ⟨rfl, id, fun _ => rfl⟩
      have hrevocation : o.actionId = "console.extension.revocation.create" :=
        hrequest.actionId.symm.trans haction
      cases heffect with
      | revocation h hepoch hnew hevidence =>
          exact ⟨_, List.mem_append_right _ (List.mem_singleton_self _), x,
            List.mem_append_right _ (List.mem_singleton_self _),
            Recorded.apply hrequest hepoch hx hevidence⟩
      | alreadyRevoked h hold =>
          have hfalse := hfirst p o r (by rw [← hact, hrevocation]) hop hrow.1 hfence.operationId
          exact absurd (hold.symm.trans hfalse) nofun
      | install h | removal h => exact absurd (h.symm.trans hrevocation) (by decide)
  | observe hop hrow hfence _ hx hobserved =>
      cases ho'
      rw [hobserved.later.actionId] at haction
      cases hobserved with
      | install h | removal h => exact absurd (h.symm.trans haction) (by decide)
  | @fail _ _ _ _ _ p =>
      cases ho'
      change p.state = _ at hstate
      unfold FailureArgs.state at hstate
      split at hstate <;> cases hstate
  | credential hop hbroker =>
      cases ho'
      exact absurd (haction ▸ by decide) (outsideCredentialBroker_passed hbroker).2.1

theorem label_eq_revocation {c : Call}
    (h : c.label = .apply "console.extension.revocation.create" p) : c = .applyRevocation p := by
  cases c <;> simp [Call.label] at h
  rw [h]

theorem revocationEvidence_texts (o : Operation) (n : Int) (inserted : Bool) :
    let applied := (revocationEvidence o (some n) inserted).getText
    applied "authority" = some "ConsoleExtensionRevocation" ∧
      applied "imageRef" = some o.targetRef ∧ applied "operationId" = some o.operationId.text ∧
      applied "claimEpoch" = some (decimal n) ∧
      applied "postcondition" = some "RevocationPresent" := by
  simp only [revocationEvidence, Jsonb.getText_object]
  exact ⟨rfl, rfl, rfl, asText_jsonInt (some n), rfl⟩

theorem Recorded.receipt_matches {v : Revocation}
    (h : Recorded o v x) : revocationReceiptMismatch o v x ≠ some true := by
  obtain ⟨hauthority, himage, hid, hepoch, hpost⟩ :=
    revocationEvidence_texts o v.claimEpoch true
  simp [revocationReceiptMismatch, h.evidence, hauthority, himage, hid, hepoch, hpost, ne,
    Cond.any_eq_true]

theorem Recorded.observed {v : Revocation}
    (h : Recorded o v x) (hv : v ∈ (db.case o.operationId).revocations)
    (hx : x ∈ (db.case o.operationId).receipts) : ∃ obs, observeRevocation db o = .ok obs := by
  obtain ⟨hv, hvid⟩ := List.mem_filter.mp hv
  obtain ⟨hx, hxid⟩ := List.mem_filter.mp hx
  simp only [decide_eq_true_eq] at hvid hxid
  have hrow : db.revocationOf o.operationId = some v := by
    refine find_eq_of_unique hv (decide_eq_true hvid) fun y hy hid => ?_
    have hsame := (of_decide_eq_true hid).trans hvid.symm
    exact Table.eq_of_conflict hy hv (by simp [Schema.conflict, revocationSchema, hsame])
      (by simp [Schema.conflict, revocationSchema, hsame])
  have hreceipt : db.receiptOf o.operationId .applied
      (fun x => decide (x.claimEpoch = v.claimEpoch)) = some x := by
    refine find_eq_of_unique hx (by simp [ExecutionReceipt.isOf, hxid, h.ownerRef, h.phase,
      h.claimEpoch]) fun y hy hof => ?_
    simp only [ExecutionReceipt.isOf, Bool.and_eq_true, decide_eq_true_eq] at hof
    obtain ⟨⟨⟨hid, -⟩, hphase⟩, hepoch⟩ := hof
    exact Table.eq_of_conflict hy hx
      (by simp [Schema.conflict, executionReceiptSchema, hid, hxid, hphase, h.phase, hepoch,
        h.claimEpoch])
      (by simp [Schema.conflict, executionReceiptSchema, hid, hxid, hphase, h.phase, hepoch,
        h.claimEpoch])
  simp only [observeRevocation, bind_eq_ok, orRaise_eq_ok, raiseIf_eq_ok, pure_eq_ok]
  refine ⟨_, v, hrow, (), ?_, x, hreceipt, (), h.receipt_matches, rfl⟩
  simp [Cond.any_eq_true, h.imageRef, h.payloadDigest, h.actionVersion]

theorem verify_missing {D : Digest} {s : Statement} {p : VerifyArgs}
    (h : raised (verifyExtensionOperation D s p db) = some "ObservationMissing") :
    ∃ o, db.operations.lookup p.operationId = some o ∧
      raised (observe db o) = some "ObservationMissing" := by
  unfold verifyExtensionOperation at h
  rcases raised_bind.mp h with h | ⟨⟨session, authority⟩, -, h⟩
  · simp [verifier, validateVerification, activeSession, currentAuthority, requirePermission,
      raised_bind, exception, SqlError.detail, sessionInvalid, staleAuthority,
      permissionDenied] at h
  · cases hkey : db.verificationOfKey p.actorRef p.idempotencyKey with
    | some v => simp [hkey, exception, SqlError.detail] at h
    | none =>
        simp only [hkey, bind_pure_comp, raised_map] at h
        unfold storeVerification at h
        rcases raised_bind.mp h with h | ⟨o, ho, h⟩
        · simp [notFound, exception, SqlError.detail] at h
        · refine ⟨o, orRaise_eq_ok.mp ho, ?_⟩
          rcases raised_bind.mp h with h | ⟨-, -, h⟩
          · simp [requireVerifiable, raised_bind, exception, SqlError.detail] at h
          rcases raised_bind.mp h with h | ⟨obs, -, h⟩
          · exact h
          · simp [raised_bind, newVerification, Db.insertVerification, Db.putOperation,
              Db.touchSession, appendEvent, newEvent] at h

/-- **No applied revocation is stranded.**  In every run in which no revocation
is applied to an image that is revoked already, a verification of an applied
revocation finds what it looks for. -/
theorem no_stranded_revocation (D : Digest) (i : Identity) (as : List Action)
    (h : Along (perform D) (fun a db => firstRevocation a db = true) as (Db.fresh i)) :
    ∀ o ∈ (reach D i as).operations.rows, o.actionId = "console.extension.revocation.create" →
      o.state = .applied → (∃ obs, observe (reach D i as) o = .ok obs) ∧
        ∀ s p, p.operationId = some o.operationId →
          raised (verifyExtensionOperation D s p (reach D i as)) ≠ some "ObservationMissing" := by
  have hrecorded : ∀ id, ((reach D i as).case id).RevocationRecorded := by
    refine along_case (I := Case.RevocationRecorded) (fun o ho => by cases ho) ?_ h
    intro s c db id c' hfirst hstep hc
    refine hstep.revocationRecorded hc fun p o r hlabel ho hr hid => ?_
    have hcall := label_eq_revocation hlabel
    subst hcall
    have hlookup : db.operations.lookup p.operationId = some o := Db.case_lookup ho hr hid
    show db.isRevoked (some o.targetRef) = false
    simpa [firstRevocation, hlookup] using hfirst
  intro o ho haction hstate
  have hobserve : ∃ obs, observe (reach D i as) o = .ok obs := by
    obtain ⟨v, hv, x, hx, hrec⟩ := hrecorded o.operationId o (Db.case_op.mpr ho) haction hstate
    rw [observe, if_pos haction]
    exact hrec.observed hv hx
  refine ⟨hobserve, fun s p hp hraised => ?_⟩
  obtain ⟨o', ho', hmissing⟩ := verify_missing hraised
  obtain ⟨obs, hok⟩ := hobserve
  have hsame : o' = o := by
    rw [hp] at ho'
    exact Option.some.inj (ho'.symm.trans (Db.case_op.mpr ho))
  rw [hsame, hok] at hmissing
  cases hmissing

namespace Demo

/-- Two revocations of the image are accepted, and then claimed and applied one
after the other. -/
def revokedTwice : List Action := [
  .call (second 1) (.acceptOperation (revoke "revoke-1")),
  .call (second 2) (.acceptOperation (revoke "revoke-2")),
  .call (second 3) (.claimOwnerOperation claim),
  .call (second 4) (.applyRevocation (applyRevoke (firstClaim 1 ⟨101⟩))),
  .call (second 5) (.claimOwnerOperation claim),
  .call (second 6) (.applyRevocation (applyRevoke (firstClaim 2 ⟨102⟩)))]

def verify (operationId : Uuid) : VerifyArgs where
  sessionId := some ⟨7⟩
  actorRef := some bob
  expectedPermissionRevision := some 3
  expectedRevokeEpoch := some 0
  operationId := some operationId
  expectedStateVersion := some 3
  idempotencyKey := some "verify-1"
  correlationId := some "verify-1"

end Demo

theorem no_stranded_revocation_once :
    raised (verifyExtensionOperation Demo.digest (Demo.second 4) (Demo.verify ⟨101⟩)
      (reach Demo.digest Demo.site (Demo.revokedRun.take 3))) ≠ some "ObservationMissing" := by
  obtain ⟨hfirst, o, ho, hid, haction, hstate⟩ := Demo.revoked_runs.1
  have hall := no_stranded_revocation Demo.digest Demo.site (Demo.revokedRun.take 3) hfirst
  exact (hall o ho haction hstate).2 (Demo.second 4) (Demo.verify ⟨101⟩) (by rw [hid]; rfl)

/-- The second revocation of an image is applied, and its verification finds no
observation. -/
theorem stranded_revocation :
    (∃ o ∈ (reach Demo.digest Demo.site Demo.revokedTwice).operations.rows,
      o.operationId = ⟨102⟩ ∧ o.actionId = "console.extension.revocation.create" ∧
        o.state = .applied) ∧
    raised (verifyExtensionOperation Demo.digest (Demo.second 7) (Demo.verify ⟨102⟩)
      (reach Demo.digest Demo.site Demo.revokedTwice)) = some "ObservationMissing" := by
  decide +kernel

end Authority
