import OpenSphere.Properties.Fencing

/-!
# Evidence

What an observation has to show before an operation is Verified.  The guard of
an observation compares some of the texts as they are, and a NULL compares with
nothing: `compared` lists them.  A committed observation shows all that is
required exactly when none of them is NULL, and in runs without such a NULL
every verified installation or removal has a stored observation that shows it.
-/

open Sql
open System (Along run)

namespace Authority

variable {p : ObserveArgs} {o : Operation} {x : Option String}

/-! ## What an observation shows -/

def part (d : Option Jsonb) (k f : String) : Option String := fieldText (field d k) f

def installParts : List String :=
  ["package", "registration", "workload", "verification", "serving", "revalidation"]

def installFormats : List (String × String × (String → Bool)) := [
  ("package", "name", nameFormat),
  ("package", "resourceVersion", resourceVersionFormat),
  ("package", "generation", generationFormat),
  ("package", "sourceRevision", commitFormat),
  ("package", "compatibilityVersion", versionFormat),
  ("package", "keyId", fun t => between (textLength t) 1 256),
  ("registration", "name", nameFormat),
  ("registration", "uid", fun t => between (textLength t) 1 128),
  ("registration", "resourceVersion", resourceVersionFormat),
  ("registration", "generation", generationFormat),
  ("registration", "observedGeneration", generationFormat)]

structure InstallShown (d : Option Jsonb) (image : String) : Prop where
  workload : part d "workload" "phase" = some "Ready"
  manifest : part d "verification" "manifest" = some "Verified"
  signature : part d "verification" "signature" = some "Verified"
  entryDigest : part d "verification" "entryDigest" = some "Verified"
  permissions : part d "verification" "permissions" = some "Approved"
  registration :
    (part d "registration" "desiredState" = some "Installed" ∧
      part d "registration" "phase" = some "Ready") ∨
    (part d "registration" "desiredState" = some "Enabled" ∧
      part d "registration" "phase" = some "Activated")
  generation : ∀ m n, (part d "registration" "observedGeneration").bind castBigint = some m →
    (part d "registration" "generation").bind castBigint = some n → n ≤ m
  serving : part d "serving" "phase" = some "Current"
  revalidation : part d "revalidation" "phase" = some "Passed"
  digest : part d "package" "digest" = some (splitPart image '@' 2) ∧
    part d "serving" "digest" = some (splitPart image '@' 2) ∧
    digestFormat (splitPart image '@' 2) = true
  manifestDigest : ∃ t, part d "package" "manifestDigest" = some t ∧
    part d "serving" "manifestDigest" = some t ∧ digestFormat t = true
  formatted : ∀ f ∈ installFormats, ∃ t, part d f.1 f.2.1 = some t ∧ f.2.2 t = true

/-- The document shows an absent registration. -/
structure RemovalShown (d : Option Jsonb) : Prop where
  name : ∃ t, part d "registration" "name" = some t ∧ nameFormat t = true
  uid : ∃ t, part d "registration" "uid" = some t ∧ between (textLength t) 1 128 = true
  phase : part d "registration" "phase" = some "Absent"

/-! ## Texts compared without a default -/

/-- The texts of an observed installation whose NULL passes the guard. -/
def installCompared (p : ObserveArgs) : List (Option String) := [
  part p.observation "registration" "desiredState",
  part p.observation "registration" "phase",
  part p.observation "workload" "phase",
  part p.observation "verification" "manifest",
  part p.observation "verification" "signature",
  part p.observation "verification" "entryDigest",
  part p.observation "verification" "permissions",
  part p.observation "serving" "phase",
  part p.observation "revalidation" "phase"]

/-- The text of an observed removal whose NULL passes the guard. -/
def removalCompared (p : ObserveArgs) : List (Option String) :=
  [part p.observation "registration" "phase"]

def Call.compared : Call → List (Option String)
  | .recordInstallObservation p => installCompared p
  | .recordRemoveObservation p => removalCompared p
  | _ => []

def given (ts : List (Option String)) : Bool := ts.all Option.isSome

def comparesGiven : Action → Bool
  | .call _ c => given c.compared
  | _ => true

/-! ## Passed guards -/

/-- A text that passed its format is there, as long as the format excludes the
empty text. -/
theorem malformed_passed {format : String → Bool}
    (h : malformed format x ≠ some true) (hempty : format "" = false) :
    ∃ t, x = some t ∧ format t = true := by
  cases x with
  | none => simp [malformed, fails, coalesce, hempty] at h
  | some t => exact ⟨t, rfl, by simpa [malformed, fails, coalesce] using h⟩

theorem lengthOutside_passed {hi : Int} (h : lengthOutside x 1 hi ≠ some true) :
    ∃ t, x = some t ∧ between (textLength t) 1 hi = true := by
  cases x with
  | none => exact absurd ((notBetween_eq_true _ _ _).mpr ⟨_, rfl, .inl (by decide)⟩) h
  | some t =>
      refine ⟨t, rfl, ?_⟩
      simp only [lengthOutside, coalesce, Option.getD_some, ne_eq, notBetween_eq_true] at h
      simp only [between, decide_eq_true_eq]
      constructor
      · by_contra hlo
        exact h ⟨_, rfl, .inl (by omega)⟩
      · by_contra hhi
        exact h ⟨_, rfl, .inr (by omega)⟩

theorem ne_given {t : String} (h : ne x (some t) ≠ some true)
    (hx : x.isSome = true) : x = some t := by
  obtain ⟨a, rfl⟩ := Option.isSome_iff_exists.mp hx
  rw [ne_passed h rfl rfl]

theorem ne_agree {y : Option String} {t : String} (h : ne x y ≠ some true)
    (hx : ∃ u, x = some u) (hy : y = some t) : x = some t := by
  obtain ⟨u, rfl⟩ := hx
  rw [ne_passed h rfl hy]

theorem pair_given {y : Option String} {a b c d : String}
    (h : Cond.not (.or (.and (eq x (some a)) (eq y (some b))) (.and (eq x (some c)) (eq y (some d))))
      ≠ some true)
    (hx : x.isSome = true) (hy : y.isSome = true) :
    (x = some a ∧ y = some b) ∨ (x = some c ∧ y = some d) := by
  obtain ⟨s, rfl⟩ := Option.isSome_iff_exists.mp hx
  obtain ⟨t, rfl⟩ := Option.isSome_iff_exists.mp hy
  rw [ne_eq, Cond.not_eq_true, Cond.or_eq_false, Cond.and_eq_false, Cond.and_eq_false] at h
  simp only [eq, Option.some.injEq, decide_eq_false_iff_not] at h ⊢
  tauto

/-- A guarded observation of an installation shows all that is required, if it
compares no NULL. -/
theorem InstallShown.of_guard {y : ExecutionReceipt}
    (hvalid : invalidInstallObservation p ≠ some true)
    (hmatch : installObservationMismatch p o y ≠ some true)
    (htarget : p.targetRef = some o.targetRef) (hgiven : given (installCompared p) = true) :
    InstallShown p.observation o.targetRef := by
  have hnot := any_ne_true hvalid
  simp only [List.forall_mem_cons] at hnot
  obtain ⟨-, -, -, -, -, -, -, -, -, hname, hversion, hgeneration, hdigest, hmanifestDigest, hsource,
    hcompatibility, hkey, hregName, hregUid, hregVersion, hregGeneration, hregObserved, hpair, hlt,
    hworkload, hmanifest, hsignature, hentry, hpermissions, hserving, hservingDigest,
    hservingManifest, hrevalidation, -⟩ := hnot
  have hsome := List.all_eq_true.mp hgiven
  simp only [installCompared, List.forall_mem_cons] at hsome
  obtain ⟨gdesired, gphase, gworkload, gmanifest, gsignature, gentry, gpermissions, gserving,
    grevalidation, -⟩ := hsome
  -- the digests of the package and of what is served
  have hagree := any_ne_true hmatch
  simp only [List.forall_mem_cons] at hagree
  obtain ⟨-, -, -, -, -, -, -, -, -, -, -, -, -, himage, hserved, hservedManifest, -⟩ := hagree
  obtain ⟨d, hd, hdformat⟩ := malformed_passed hdigest (by decide)
  obtain ⟨m, hm, hmformat⟩ := malformed_passed hmanifestDigest (by decide)
  obtain ⟨d', hd', -⟩ := malformed_passed hservingDigest (by decide)
  obtain ⟨m', hm', -⟩ := malformed_passed hservingManifest (by decide)
  have hexact : splitPart o.targetRef '@' 2 = d := by
    rw [htarget] at himage
    exact ne_passed himage rfl hd
  have hformats : ∀ f ∈ installFormats,
      ∃ t, part p.observation f.1 f.2.1 = some t ∧ f.2.2 t = true := by
    simp only [installFormats, List.forall_mem_cons]
    exact ⟨malformed_passed hname (by decide), malformed_passed hversion (by decide),
      malformed_passed hgeneration (by decide), malformed_passed hsource (by decide),
      malformed_passed hcompatibility (by decide), lengthOutside_passed hkey,
      malformed_passed hregName (by decide), lengthOutside_passed hregUid,
      malformed_passed hregVersion (by decide), malformed_passed hregGeneration (by decide),
      malformed_passed hregObserved (by decide), List.forall_mem_nil _⟩
  exact {
    workload := ne_given hworkload gworkload
    manifest := ne_given hmanifest gmanifest
    signature := ne_given hsignature gsignature
    entryDigest := ne_given hentry gentry
    permissions := ne_given hpermissions gpermissions
    registration := pair_given hpair gdesired gphase
    generation := fun m n hm hn => by
      by_contra hlt'
      exact hlt ((lt_eq_true _ _).mpr ⟨m, n, hm, hn, by omega⟩)
    serving := ne_given hserving gserving
    revalidation := ne_given hrevalidation grevalidation
    digest := by
      rw [hexact]
      exact ⟨hd, ne_agree hserved ⟨d', hd'⟩ hd, hdformat⟩
    manifestDigest := ⟨m, hm, ne_agree hservedManifest ⟨m', hm'⟩ hm, hmformat⟩
    formatted := hformats }

theorem InstallShown.given {image : String} (h : InstallShown p.observation image) :
    given (installCompared p) = true := by
  have hregistration : (part p.observation "registration" "desiredState").isSome = true ∧
      (part p.observation "registration" "phase").isSome = true := by
    rcases h.registration with ⟨hstate, hphase⟩ | ⟨hstate, hphase⟩ <;> simp [hstate, hphase]
  simp [Authority.given, installCompared, hregistration, h.workload, h.manifest, h.signature,
    h.entryDigest, h.permissions, h.serving, h.revalidation]

theorem RemovalShown.of_guard (hvalid : invalidRemovalObservation p ≠ some true)
    (hgiven : given (removalCompared p) = true) : RemovalShown p.observation := by
  have hnot := any_ne_true hvalid
  simp only [List.forall_mem_cons] at hnot
  obtain ⟨-, -, -, -, hname, huid, hphase, -⟩ := hnot
  exact ⟨malformed_passed hname (by decide), lengthOutside_passed huid,
    ne_given hphase (by simpa [given, removalCompared] using hgiven)⟩

theorem RemovalShown.given (h : RemovalShown p.observation) :
    given (removalCompared p) = true := by
  simp [Authority.given, removalCompared, h.phase]

/-! ## Stored observations -/

/-- A part of the observation reads the same in the stored evidence. -/
theorem part_ofNull (x : Option Jsonb) (f : String) : fieldText (some (.ofNull x)) f = fieldText x f := by
  cases x <;> rfl

theorem part_some (d : Jsonb) (k f : String) : part (some d) k f = fieldText (d.get k) f := rfl

theorem part_installEvidence (p : ObserveArgs) (o : Operation) :
    ∀ k ∈ installParts, ∀ f,
      part (some (installObservationEvidence p o)) k f = part p.observation k f := by
  have hget : ∀ k ∈ installParts,
      (installObservationEvidence p o).get k = some (.ofNull (field p.observation k)) := by
    simp only [installObservationEvidence, Jsonb.get_object, installParts, List.forall_mem_cons]
    exact ⟨rfl, rfl, rfl, rfl, rfl, rfl, List.forall_mem_nil _⟩
  intro k hk f
  rw [part_some, hget k hk, part_ofNull]
  rfl

theorem part_removalEvidence (p : ObserveArgs) (o : Operation) (f : String) :
    part (some (removalObservationEvidence p o)) "registration" f =
      part p.observation "registration" f := by
  have hget : (removalObservationEvidence p o).get "registration" =
      some (.ofNull (field p.observation "registration")) := by
    rw [removalObservationEvidence, Jsonb.get_object]
    rfl
  rw [part_some, hget, part_ofNull]
  rfl

/-- Two documents with the same parts show the same. -/
theorem InstallShown.congr {d d' : Option Jsonb} {image : String} (h : InstallShown d image)
    (hparts : ∀ k ∈ installParts, ∀ f, part d' k f = part d k f) : InstallShown d' image := by
  have hformats : ∀ f ∈ installFormats, f.1 ∈ installParts := by
    simp [installFormats, installParts]
  have hformatted : ∀ f ∈ installFormats, ∃ t, part d' f.1 f.2.1 = some t ∧ f.2.2 t = true := by
    intro f hf
    rw [hparts f.1 (hformats f hf)]
    exact h.formatted f hf
  simp only [installParts, List.forall_mem_cons] at hparts
  obtain ⟨hpackage, hregistration, hworkload, hverification, hserving, hrevalidation, -⟩ := hparts
  exact {
    workload := by rw [hworkload]; exact h.workload
    manifest := by rw [hverification]; exact h.manifest
    signature := by rw [hverification]; exact h.signature
    entryDigest := by rw [hverification]; exact h.entryDigest
    permissions := by rw [hverification]; exact h.permissions
    registration := by simp only [hregistration]; exact h.registration
    generation := by simp only [hregistration]; exact h.generation
    serving := by rw [hserving]; exact h.serving
    revalidation := by rw [hrevalidation]; exact h.revalidation
    digest := by rw [hpackage, hserving]; exact h.digest
    manifestDigest := by simp only [hpackage, hserving]; exact h.manifestDigest
    formatted := hformatted }

theorem RemovalShown.congr {d d' : Option Jsonb} (h : RemovalShown d)
    (hpart : ∀ f, part d' "registration" f = part d "registration" f) : RemovalShown d' :=
  ⟨by rw [hpart]; exact h.name, by rw [hpart]; exact h.uid, by rw [hpart]; exact h.phase⟩

/-- The stored observations of the case show what is required. -/
def Case.Shown (c : Case) : Prop :=
  ∀ o, c.op = some o → ∀ x ∈ c.receipts, x.phase = .verified →
    (o.actionId = "console.extension.install" ∧ InstallShown (some x.evidence) o.targetRef) ∨
      (o.actionId = "console.extension.remove" ∧ RemovalShown (some x.evidence))

theorem Observed.shown {w : Scene} {o' : Operation} {x : ExecutionReceipt}
    {t : EventType} (h : Observed w o p x t o')
    (hinstall : t = .extensionInstallObservationRequested → given (installCompared p) = true)
    (hremoval : t = .extensionRemovalObservationRequested → given (removalCompared p) = true) :
    (o'.actionId = "console.extension.install" ∧ InstallShown (some x.evidence) o'.targetRef) ∨
      (o'.actionId = "console.extension.remove" ∧ RemovalShown (some x.evidence)) := by
  have hlater := h.later
  rw [hlater.actionId, hlater.targetRef]
  cases h with
  | install haction htarget hvalid hmatch hevidence =>
      refine .inl ⟨haction, ?_⟩
      rw [hevidence]
      exact (InstallShown.of_guard hvalid hmatch htarget (hinstall rfl)).congr
        (part_installEvidence p o)
  | removal haction hvalid hevidence =>
      refine .inr ⟨haction, ?_⟩
      rw [hevidence]
      exact (RemovalShown.of_guard hvalid (hremoval rfl)).congr (part_removalEvidence p o)

/-- A step that compares no NULL keeps what the stored observations show. -/
theorem Case.Step.shown {w : Scene} {l : Label} {c c' : Case} (h : Case.Step w l c c')
    (hempty : c.op = none → c = Case.empty)
    (hinstall : ∀ p, l = .observe .extensionInstallObservationRequested p →
      given (installCompared p) = true)
    (hremoval : ∀ p, l = .observe .extensionRemovalObservationRequested p →
      given (removalCompared p) = true)
    (hc : c.Shown) : c'.Shown := by
  have hlater := h.later
  -- the receipts that were there belong to the same request
  have hkept : ∀ {o o'}, c.op = some o → c'.op = some o' → ∀ x ∈ c.receipts, x.phase = .verified →
      (o'.actionId = "console.extension.install" ∧ InstallShown (some x.evidence) o'.targetRef) ∨
        (o'.actionId = "console.extension.remove" ∧ RemovalShown (some x.evidence)) := by
    intro o o' ho ho' x hx hphase
    obtain ⟨q, hq, hl⟩ := hlater.op o ho
    rw [ho'] at hq
    cases hq
    rw [hl.actionId, hl.targetRef]
    exact hc o ho x hx hphase
  intro o' ho' x hx hphase
  cases h with
  | accept hop =>
      rw [hempty hop] at hx
      exact absurd hx (List.not_mem_nil)
  | approve hop | claim hop | verify hop | propose hop | merge hop | credential hop =>
      exact hkept hop ho' x hx hphase
  | renew => exact hc o' ho' x hx hphase
  | apply hop hrow hfence haction hstate hfor =>
      rcases List.mem_append.mp hx with hx | hx
      · exact hkept hop ho' x hx hphase
      · rw [List.mem_singleton.mp hx, hfor.phase] at hphase
        cases hphase
  | observe hop hrow hfence hstate hfor hobserved =>
      rcases List.mem_append.mp hx with hold | hnew
      · exact hkept hop ho' x hold hphase
      · cases ho'
        rw [List.mem_singleton.mp hnew]
        exact hobserved.shown (fun ht => hinstall _ (by rw [ht])) fun ht => hremoval _ (by rw [ht])
  | @fail _ _ _ _ _ p hop hrow hfence hmatch hfor =>
      rcases List.mem_append.mp hx with hx | hx
      · exact hkept hop ho' x hx hphase
      · rw [List.mem_singleton.mp hx, hfor.phase] at hphase
        unfold FailureArgs.phase at hphase
        split at hphase <;> cases hphase

theorem Stage.verified {ds os : List Bool} {m n : Nat} (h : Stage o ds os m n)
    (hstate : o.state = .verified)
    (hregistration : o.actionId ≠ "console.extension.revocation.create") : n = 1 := by
  cases h with
  | observed => rfl
  | revoked haction => exact absurd haction hregistration
  | _ => simp_all

theorem Case.Inv.observation_stored {c : Case} (hc : c.Inv) (hop : c.op = some o)
    (hstate : o.state = .verified) (haction : o.actionId ∈ extensionActions)
    (hregistration : o.actionId ≠ "console.extension.revocation.create") :
    ∃ x ∈ c.receipts, x.phase = .verified := by
  by_cases howner : o.ownerRef = some "C_EXT"
  · have hone : receiptCount .verified c.receipts = 1 :=
      (hc.stage o hop howner).verified hstate hregistration
    obtain ⟨x, hx, hphase⟩ := List.countP_pos_iff.mp (by rw [← receiptCount, hone]; decide)
    exact ⟨x, hx, of_decide_eq_true hphase⟩
  · exact absurd haction ((hc.foreign o hop howner).untyped (by simp [hstate]))

theorem recordInstallObservation_shown {D : Digest} {s : Statement} {db : Db}
    {v : Db × Settled} (h : recordInstallObservation D s p db = .ok v) :
    ∃ image, p.targetRef = some image ∧
      (InstallShown p.observation image ↔ given (installCompared p) = true) := by
  obtain ⟨db', v⟩ := v
  obtain ⟨id, f, -, hstep⟩ := recordInstallObservation_steps h
  generalize f (db.case id) = c' at hstep
  cases hstep with
  | observe hop hrow hfence hstate hx hobserved =>
      cases hobserved with
      | install haction htarget hvalid hmatch =>
          exact ⟨_, htarget, InstallShown.given, InstallShown.of_guard hvalid hmatch htarget⟩

theorem recordRemoveObservation_shown {D : Digest} {s : Statement} {db : Db}
    {v : Db × Settled} (h : recordRemoveObservation D s p db = .ok v) :
    RemovalShown p.observation ↔ given (removalCompared p) = true := by
  obtain ⟨db', v⟩ := v
  obtain ⟨id, f, -, hstep⟩ := recordRemoveObservation_steps h
  generalize f (db.case id) = c' at hstep
  cases hstep with
  | observe hop hrow hfence hstate hx hobserved =>
      cases hobserved with
      | removal haction hvalid => exact ⟨RemovalShown.given, RemovalShown.of_guard hvalid⟩

/-- An operation with a stored observation of a ready installation or of an
absent registration, as its action requires. -/
def Db.Evidenced (db : Db) (o : Operation) : Prop :=
  (o.actionId = "console.extension.install" → ∃ x ∈ db.receipts.rows,
    x.operationId = o.operationId ∧ x.phase = .verified ∧
      InstallShown (some x.evidence) o.targetRef) ∧
  (o.actionId = "console.extension.remove" → ∃ x ∈ db.receipts.rows,
    x.operationId = o.operationId ∧ x.phase = .verified ∧ RemovalShown (some x.evidence))

/-- **Verified means evidenced.**  An observation that commits shows all that is
required if and only if it compares no NULL; and in every run whose observations
compare no NULL, each verified installation or removal has a stored observation
that shows all that is required. -/
theorem verified_evidenced (D : Digest) (i : Identity) (as : List Action) :
    (∀ db s p v, recordInstallObservation D s p db = .ok v → ∃ image, p.targetRef = some image ∧
      (InstallShown p.observation image ↔ given (installCompared p) = true)) ∧
    (∀ db s p v, recordRemoveObservation D s p db = .ok v →
      (RemovalShown p.observation ↔ given (removalCompared p) = true)) ∧
    (Along (perform D) (fun a _ => comparesGiven a = true) as (Db.fresh i) →
      ∀ o ∈ (reach D i as).operations.rows, o.state = .verified → (reach D i as).Evidenced o) := by
  refine ⟨fun _ _ _ _ => recordInstallObservation_shown, fun _ _ _ _ =>
    recordRemoveObservation_shown, fun has o ho hstate => ?_⟩
  have hcase : ((reach D i as).case o.operationId).Inv ∧
      ((reach D i as).case o.operationId).Shown := by
    refine along_case (I := fun c => c.Inv ∧ c.Shown)
      ⟨Case.inv_empty, fun o ho => by cases ho⟩ ?_ has o.operationId
    intro s c db id c' hgiven hstep hc
    refine ⟨hstep.inv hc.1, hstep.shown hc.1.empty (fun p hlabel => ?_) (fun p hlabel => ?_) hc.2⟩
    · cases c <;> simp [Call.label] at hlabel
      subst hlabel
      exact hgiven
    · cases c <;> simp [Call.label] at hlabel
      subst hlabel
      exact hgiven
  have hop := Db.case_op.mpr ho
  have hstored : ∀ action ∈ extensionActions, action ≠ "console.extension.revocation.create" →
      o.actionId = action → ∃ x ∈ (reach D i as).receipts.rows, x.operationId = o.operationId ∧
        x.phase = .verified ∧ x ∈ ((reach D i as).case o.operationId).receipts := by
    rintro action haction hne rfl
    obtain ⟨x, hx, hphase⟩ := hcase.1.observation_stored hop hstate haction hne
    obtain ⟨hmem, hid⟩ := List.mem_filter.mp hx
    exact ⟨x, hmem, of_decide_eq_true hid, hphase, hx⟩
  constructor
  · intro haction
    obtain ⟨x, hx, hid, hphase, hmem⟩ := hstored _ (by decide) (by decide) haction
    rcases hcase.2 o hop x hmem hphase with ⟨-, hshown⟩ | ⟨hother, -⟩
    · exact ⟨x, hx, hid, hphase, hshown⟩
    · exact absurd (hother.symm.trans haction) (by decide)
  · intro haction
    obtain ⟨x, hx, hid, hphase, hmem⟩ := hstored _ (by decide) (by decide) haction
    rcases hcase.2 o hop x hmem hphase with ⟨hother, -⟩ | ⟨-, hshown⟩
    · exact absurd (hother.symm.trans haction) (by decide)
    · exact ⟨x, hx, hid, hphase, hshown⟩

theorem verified_evidenced_ready :
    ∃ o ∈ (reach Demo.digest Demo.site (Demo.observedRun Demo.readyObservation)).operations.rows,
      o.state = .verified ∧ o.actionId = "console.extension.install" ∧
        (reach Demo.digest Demo.site (Demo.observedRun Demo.readyObservation)).Evidenced o := by
  have hgiven : Along (perform Demo.digest) (fun a _ => comparesGiven a = true)
      (Demo.observedRun Demo.readyObservation) (Db.fresh Demo.site) := by
    decide
  obtain ⟨o, ho, hstate, haction⟩ := Demo.observed_runs.2.1
  exact ⟨o, ho, hstate, haction, (verified_evidenced Demo.digest Demo.site
    (Demo.observedRun Demo.readyObservation)).2.2 hgiven o ho hstate⟩

/-- The installation is verified on an observation without a phase of its
workload. -/
theorem phaseless_install_verified :
    ∃ o ∈ (reach Demo.digest Demo.site
        (Demo.observedRun Demo.phaselessObservation)).operations.rows,
      o.state = .verified ∧
        ¬ (reach Demo.digest Demo.site (Demo.observedRun Demo.phaselessObservation)).Evidenced o := by
  obtain ⟨o, ho, ⟨hstate, haction⟩, hnone⟩ := Demo.observed_runs.2.2
  refine ⟨o, ho, hstate, fun hevidenced => ?_⟩
  obtain ⟨x, hx, -, -, hshown⟩ := hevidenced.1 haction
  exact absurd ((hnone x hx).symm.trans hshown.workload) nofun

end Authority
