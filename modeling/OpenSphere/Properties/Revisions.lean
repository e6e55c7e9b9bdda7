import OpenSphere.Catalog.Origins
import OpenSphere.Properties.Trust

/-!
# The revision of the catalog is semantic

Sources that are observed again give the same revision, in whatever order their objects are listed.
The one thing that a snapshot takes from the snapshot before besides a plugin that waits for its
release is the Service of a release that was replaced.  The next snapshot takes it from the
registration, so the two have to agree.
-/

open Js (Value Members)

namespace Catalog

/-! ## Observing again -/

structure SameRegistration (a b : Resource) : Prop where
  name : a.name = b.name
  created : a.creationTimestamp = b.creationTimestamp
  spec : nested a.content ["spec"] = nested b.content ["spec"]
  status : ∀ k, k ≠ "currentResolvedAt" → k ≠ "channelCheckedAt" →
    nested a.content ["status", k] = nested b.content ["status", k]

/-- The same sources, observed again: only times and the order of the objects may differ. -/
structure Reobserved (a b : Input) : Prop where
  packages : a.packages.Perm b.packages
  registrations : ∃ regs, a.registrations.Perm regs ∧
    List.Forall₂ SameRegistration regs b.registrations
  descriptors : a.descriptors.Perm b.descriptors
  components : a.components.Perm b.components
  channel : a.channel = b.channel
  version : a.releaseLockResourceVersion = b.releaseLockResourceVersion
  trustedKeys : a.trustedKeys = b.trustedKeys
  navigation : a.navigation = b.navigation

def artifactService (reg : Resource) : String :=
  nestedString reg.content ["status", "serving", "artifactServiceId"]

/-- Where a package is published anew, the registration knows the Service of the plugin that it
replaces. -/
def Input.RetainsServices (L : Library) (input : Input) : Prop :=
  ∀ pkg ∈ input.packages, ∀ reg, input.registration pkg.name = some reg →
    verifiedRegistration reg = true → packageMatchesCurrentRegistration pkg reg = true →
    ∀ prior, input.previous pkg.name = some prior → prior.artifactServiceId ≠ "" →
    prior.artifactServiceId ≠ artifactService reg →
    retainedServices L pkg.name (artifactService reg) reg = [prior.artifactServiceId]

/-- Objects have names of their own, and what is reported of a package is not mistaken for what is
reported of another. -/
structure Input.Named (input : Input) : Prop extends input.Distinct where
  reports : ∀ pkg ∈ input.packages, ∀ other ∈ input.packages, pkg.name ≠ "extension." ++ other.name

/-- The releases of the official module are as valid at one time as at another. -/
def Input.SameVerdicts (L : Library) (input : Input) (now now' : String → Int) : Prop :=
  ∀ pkg ∈ input.packages, official pkg = true →
    (verifyOfficialModule L pkg input.trustedKeys (now pkg.name)).isNone =
      (verifyOfficialModule L pkg input.trustedKeys (now' pkg.name)).isNone

/-! ## Fields of a registration -/

theorem nested_append : ∀ (x : Value) (p q : List String), nested x (p ++ q) = nested (nested x p) q
  | _, [], _ => by rw [List.nil_append]; simp [nested]
  | .object ms, k :: p, q => nested_append (ms.get k) p q
  | .undefined, k :: p, q | .null, k :: p, q | .boolean b, k :: p, q | .number t, k :: p, q
  | .string s, k :: p, q | .array xs, k :: p, q => by cases q <;> rfl

section

variable {a b : Resource}

theorem SameRegistration.nested_status (h : SameRegistration a b) {k : String} (path : List String)
    (hk : k ≠ "currentResolvedAt") (hk' : k ≠ "channelCheckedAt") :
    nested b.content ("status" :: k :: path) = nested a.content ("status" :: k :: path) := by
  have hsplit : "status" :: k :: path = ["status", k] ++ path := rfl
  rw [hsplit, nested_append, nested_append, h.status k hk hk']

theorem SameRegistration.nested_spec (h : SameRegistration a b) (path : List String) :
    nested b.content ("spec" :: path) = nested a.content ("spec" :: path) := by
  have hsplit : "spec" :: path = ["spec"] ++ path := rfl
  rw [hsplit, nested_append, nested_append, h.spec]

theorem SameRegistration.status_text (h : SameRegistration a b) {k : String} (path : List String)
    (hk : k ≠ "currentResolvedAt") (hk' : k ≠ "channelCheckedAt") :
    nestedString b.content ("status" :: k :: path) = nestedString a.content ("status" :: k :: path) := by
  rw [nestedString, h.nested_status path hk hk', nestedString]

theorem SameRegistration.spec_text (h : SameRegistration a b) (path : List String) :
    nestedString b.content ("spec" :: path) = nestedString a.content ("spec" :: path) := by
  rw [nestedString, h.nested_spec, nestedString]

theorem SameRegistration.verified (h : SameRegistration a b) :
    verifiedRegistration b = verifiedRegistration a := by
  simp (disch := decide) only [verifiedRegistration, h.status_text, h.spec_text]

theorem SameRegistration.digest (h : SameRegistration a b) : currentDigest b = currentDigest a :=
  h.status_text [] (by decide) (by decide)

theorem SameRegistration.manifest (h : SameRegistration a b) : currentManifest b = currentManifest a :=
  h.status_text [] (by decide) (by decide)

theorem SameRegistration.service (h : SameRegistration a b) : artifactService b = artifactService a :=
  h.status_text _ (by decide) (by decide)

theorem SameRegistration.retained (h : SameRegistration a b) (L : Library) (id service : String) :
    retainedServices L id service b = retainedServices L id service a := by
  unfold retainedServices
  rw [h.status_text [] (by decide) (by decide), h.status_text [] (by decide) (by decide)]

/-- The plugin of a registration that was observed again differs in times only. -/
theorem SameRegistration.activated_eq (h : SameRegistration a b) (pkg : Resource) (nav : Members) :
    activatedPlugin pkg b nav = { activatedPlugin pkg a nav with
      resolvedAt := nestedString b.content ["status", "currentResolvedAt"]
      channelCheckedAt := nestedString b.content ["status", "channelCheckedAt"] } := by
  have hrefs : nestedSlice b.content ["status", "currentEvidenceRefs"] =
      nestedSlice a.content ["status", "currentEvidenceRefs"] := by
    rw [nestedSlice, h.nested_status [] (by decide) (by decide), nestedSlice]
  unfold activatedPlugin
  simp (disch := decide) only [h.status_text, h.spec_text, h.created, h.digest, h.manifest, hrefs]

/-- A Service that the registration knows is retained, whatever snapshot came before. -/
theorem pluginFrom_prior {L : Library} {pkg reg : Resource} {nav : Members} {prior : Option Plugin}
    (h : ∀ p ∈ prior, p.artifactServiceId ≠ "" → p.artifactServiceId ≠ artifactService reg →
      retainedServices L pkg.name (artifactService reg) reg = [p.artifactServiceId]) :
    pluginFrom L pkg reg nav prior = pluginFrom L pkg reg nav none := by
  have hretained : retainedAfter L prior (activatedPlugin pkg reg nav) reg =
      retainedServices L pkg.name (artifactService reg) reg := by
    unfold retainedAfter
    split
    · rename_i p hp
      obtain ⟨hprior, hother⟩ := Option.filter_eq_some_iff.mp hp
      simp only [Bool.and_eq_true, bne_iff_ne] at hother
      exact (h p hprior hother.1 hother.2).symm
    · rfl
  unfold pluginFrom
  simp only [hretained]
  rfl

/-- A registration that was observed again gives the same plugin up to times. -/
theorem SameRegistration.pluginFrom_eq (h : SameRegistration a b) (L : Library) (pkg : Resource)
    (nav : Members) :
    (pluginFrom L pkg b nav none).map Plugin.unobserved =
      (pluginFrom L pkg a nav none).map Plugin.unobserved := by
  have hchecks : pluginChecks pkg (activatedPlugin pkg b nav) =
      pluginChecks pkg (activatedPlugin pkg a nav) := by
    rw [h.activated_eq]
    rfl
  have hretained : retainedAfter L none (activatedPlugin pkg b nav) b =
      retainedAfter L none (activatedPlugin pkg a nav) a := by
    rw [h.activated_eq]
    exact h.retained L _ _
  unfold pluginFrom
  simp only [hchecks, hretained]
  rw [h.activated_eq]
  cases refusal (pluginChecks pkg (activatedPlugin pkg a nav)) <;> rfl

end

/-! ## Lookups -/

theorem forall₂_left {α β : Type} {R : α → β → Prop} {l : List α} {l' : List β}
    (h : List.Forall₂ R l l') {x : α} (hx : x ∈ l) : ∃ y ∈ l', R x y := by
  induction h with
  | nil => cases hx
  | cons hrel _ ih =>
      rcases List.mem_cons.mp hx with rfl | hx
      · exact ⟨_, List.mem_cons_self .., hrel⟩
      · obtain ⟨y, hy, hrel⟩ := ih hx
        exact ⟨y, List.mem_cons_of_mem _ hy, hrel⟩

theorem same_names {l l' : List Resource} (h : List.Forall₂ SameRegistration l l') :
    l.map Resource.name = l'.map Resource.name := by
  induction h with
  | nil => rfl
  | cons hhead _ ih => rw [List.map_cons, List.map_cons, hhead.name, ih]

section

variable {a b : Input}

theorem Reobserved.names (h : Reobserved a b) (hnamed : a.Named) :
    (b.registrations.map Resource.name).Nodup := by
  obtain ⟨regs, hperm, hsame⟩ := h.registrations
  rw [← same_names hsame]
  exact (hperm.map _).nodup_iff.mp hnamed.registrations

theorem Reobserved.registration (h : Reobserved a b) (hnamed : a.Named) (id : String) :
    Option.Rel SameRegistration (a.registration id) (b.registration id) := by
  have hnames := h.names hnamed
  obtain ⟨regs, hperm, hsame⟩ := h.registrations
  cases ha : a.registration id with
  | some ra =>
      obtain ⟨hmem, hid⟩ := (find_reverse_iff hnamed.registrations).mp ha
      obtain ⟨rb, hrb, hrel⟩ := forall₂_left hsame (hperm.mem_iff.mp hmem)
      have hb : b.registration id = some rb :=
        (find_reverse_iff hnames).mpr ⟨hrb, hrel.name ▸ hid⟩
      rw [hb]
      exact .some hrel
  | none =>
      cases hb : b.registration id with
      | none => exact .none
      | some rb =>
          obtain ⟨hmem, hid⟩ := (find_reverse_iff hnames).mp hb
          obtain ⟨ra, hra, hrel⟩ := forall₂_left hsame.flip hmem
          have hsome : a.registration id = some ra :=
            (find_reverse_iff hnamed.registrations).mpr
              ⟨hperm.mem_iff.mpr hra, hrel.name.trans hid⟩
          rw [ha] at hsome
          cases hsome

/-! ## One package -/

theorem shown_shown (p : Plugin) (nav : Members) : (p.shown nav).shown nav = p.shown nav := by
  unfold Plugin.shown
  cases labelOverride nav <;> cases preference nav "icon" <;> rfl

/-- The plugins that a snapshot of the sources publishes are the ones it finds the next time. -/
def Carries (L : Library) (a b : Input) : Prop :=
  ∀ pkg ∈ a.packages,
    (b.previous pkg.name).map Plugin.unobserved = (publish L a pkg).1.map Plugin.unobserved

variable {L : Library} {pkg : Resource}

theorem publish_ahead_again {ra rb : Resource}
    (ha : (a.registration pkg.name).filter verifiedRegistration = some ra)
    (hb : (b.registration pkg.name).filter verifiedRegistration = some rb)
    (hsame : SameRegistration ra rb) (hnav : b.preferences pkg.name = a.preferences pkg.name)
    (hahead : packageMatchesCurrentRegistration pkg ra = false)
    (hahead' : packageMatchesCurrentRegistration pkg rb = false)
    (hprev : (b.previous pkg.name).map Plugin.unobserved =
      (publish L a pkg).1.map Plugin.unobserved) :
    (publish L b pkg).1.map Plugin.unobserved = (publish L a pkg).1.map Plugin.unobserved ∧
      (publish L b pkg).2 = (publish L a pkg).2 := by
  have hactivated : ∀ p : Plugin, p.activated rb = p.activated ra := by
    intro p
    rw [Plugin.activated, hsame.digest, hsame.manifest, Plugin.activated]
  cases hprior : (a.previous pkg.name).filter (·.activated ra) with
  | none =>
      have hnone : b.previous pkg.name = none := by
        simpa [publish, ha, hahead, hprior] using hprev
      simp [publish, ha, hb, hahead, hahead', hprior, hnone]
  | some prior =>
      have hact : prior.activated ra = true := (Option.filter_eq_some_iff.mp hprior).2
      have hshown : (publish L a pkg).1 = some (prior.shown (a.preferences pkg.name)) := by
        simp [publish, ha, hahead, hprior]
      rw [hshown, Option.map_some, Option.map_eq_some_iff] at hprev
      obtain ⟨q, hq, htimes⟩ := hprev
      -- the plugin that is found is the one that was published, up to times
      have hqact : q.activated rb = true := by
        rw [hactivated]
        exact (congrArg (Plugin.activated · ra) htimes).trans hact
      have hfilter : (b.previous pkg.name).filter (·.activated rb) = some q := by
        simp [hq, Option.filter, hqact]
      have hagain := congrArg (Plugin.shown · (a.preferences pkg.name)) htimes
      have hnext : (q.shown (a.preferences pkg.name)).unobserved =
          (prior.shown (a.preferences pkg.name)).unobserved := by
        refine Eq.trans ?_ (hagain.trans ?_)
        · rfl
        · exact congrArg Plugin.unobserved (shown_shown prior (a.preferences pkg.name))
      rw [hshown]
      simp [publish, ha, hb, hahead, hahead', hprior, hfilter, hnav, hnext]

theorem publish_fresh_again {ra rb : Resource}
    (ha : (a.registration pkg.name).filter verifiedRegistration = some ra)
    (hb : (b.registration pkg.name).filter verifiedRegistration = some rb)
    (hsame : SameRegistration ra rb) (hnav : b.preferences pkg.name = a.preferences pkg.name)
    (hkeys : b.trustedKeys = a.trustedKeys)
    (hfresh : packageMatchesCurrentRegistration pkg ra = true)
    (hfresh' : packageMatchesCurrentRegistration pkg rb = true)
    (hretains : ∀ p ∈ a.previous pkg.name, p.artifactServiceId ≠ "" →
      p.artifactServiceId ≠ artifactService ra →
      retainedServices L pkg.name (artifactService ra) ra = [p.artifactServiceId])
    (hprev : (b.previous pkg.name).map Plugin.unobserved =
      (publish L a pkg).1.map Plugin.unobserved) :
    (publish L b pkg).1.map Plugin.unobserved = (publish L a pkg).1.map Plugin.unobserved ∧
      (publish L b pkg).2 = (publish L a pkg).2 := by
  have hplugin : pluginFrom L pkg ra (a.preferences pkg.name) (a.previous pkg.name) =
      pluginFrom L pkg ra (a.preferences pkg.name) none := pluginFrom_prior hretains
  have hplugin' : pluginFrom L pkg rb (a.preferences pkg.name) (b.previous pkg.name) =
      pluginFrom L pkg rb (a.preferences pkg.name) none := by
    refine pluginFrom_prior fun q hq _ hother => absurd ?_ hother
    -- what is found was published with the Service of the registration
    rw [hq, Option.map_some, eq_comm, Option.map_eq_some_iff] at hprev
    obtain ⟨p, hp, htimes⟩ := hprev
    have hservice : p.artifactServiceId = artifactService ra := by
      simp only [publish, ha, hfresh, hplugin, Bool.not_true, Bool.false_eq_true, if_false] at hp
      cases hfrom : pluginFrom L pkg ra (a.preferences pkg.name) none with
      | error e =>
          rw [hfrom] at hp
          cases hp
      | ok plugin =>
          simp only [hfrom] at hp
          split at hp
          · obtain rfl := Option.some.inj hp
            rw [pluginFrom_ok hfrom]
            rfl
          · cases hp
    rw [hsame.service, ← hservice]
    exact (congrArg Plugin.artifactServiceId htimes).symm
  have hmap := hsame.pluginFrom_eq L pkg (a.preferences pkg.name)
  simp only [publish, ha, hb, hfresh, hfresh', hnav, hkeys, hplugin, hplugin', Bool.not_true,
    Bool.false_eq_true, if_false]
  cases hfrom : pluginFrom L pkg ra (a.preferences pkg.name) none with
  | error e =>
      cases hfrom' : pluginFrom L pkg rb (a.preferences pkg.name) none with
      | error e' =>
          rw [hfrom, hfrom'] at hmap
          obtain rfl := Except.error.inj hmap
          exact ⟨rfl, rfl⟩
      | ok plugin' =>
          rw [hfrom, hfrom'] at hmap
          cases hmap
  | ok plugin =>
      cases hfrom' : pluginFrom L pkg rb (a.preferences pkg.name) none with
      | error e' =>
          rw [hfrom, hfrom'] at hmap
          cases hmap
      | ok plugin' =>
          rw [hfrom, hfrom'] at hmap
          have htimes : plugin'.unobserved = plugin.unobserved := Except.ok.inj hmap
          have hkey := congrArg Plugin.keyId htimes
          change plugin'.keyId = plugin.keyId at hkey
          simp only [hkey]
          split
          · exact ⟨congrArg some htimes, rfl⟩
          · exact ⟨rfl, rfl⟩

/-- What is published for a package the next time is the same up to times, and what is reported is
the same. -/
theorem publish_again (h : Reobserved a b) (hnamed : a.Named) (hretains : a.RetainsServices L)
    (hcarries : Carries L a b) (hpkg : pkg ∈ a.packages) :
    (publish L b pkg).1.map Plugin.unobserved = (publish L a pkg).1.map Plugin.unobserved ∧
      (publish L b pkg).2 = (publish L a pkg).2 := by
  have hprev := hcarries pkg hpkg
  have hnav : b.preferences pkg.name = a.preferences pkg.name := by
    rw [Input.preferences, Input.preferences, h.navigation]
  have hreg := h.registration hnamed pkg.name
  cases ha : a.registration pkg.name with
  | none =>
      rw [ha] at hreg
      cases hb : b.registration pkg.name with
      | none => simp [publish, ha, hb]
      | some rb =>
          rw [hb] at hreg
          cases hreg
  | some ra =>
      cases hb : b.registration pkg.name with
      | none =>
          rw [ha, hb] at hreg
          cases hreg
      | some rb =>
          rw [ha, hb] at hreg
          obtain ⟨hsame⟩ := hreg
          cases hverified : verifiedRegistration ra with
          | false => simp [publish, ha, hb, Option.filter, hsame.verified, hverified]
          | true =>
              have hfilter : (a.registration pkg.name).filter verifiedRegistration = some ra := by
                simp [ha, Option.filter, hverified]
              have hfilter' : (b.registration pkg.name).filter verifiedRegistration = some rb := by
                simp [hb, Option.filter, hsame.verified, hverified]
              have hmatches : packageMatchesCurrentRegistration pkg rb =
                  packageMatchesCurrentRegistration pkg ra := by
                rw [packageMatchesCurrentRegistration, hsame.digest, hsame.manifest,
                  packageMatchesCurrentRegistration]
              cases hfresh : packageMatchesCurrentRegistration pkg ra with
              | false =>
                  exact publish_ahead_again hfilter hfilter' hsame hnav hfresh
                    (hmatches.trans hfresh) hprev
              | true =>
                  exact publish_fresh_again hfilter hfilter' hsame hnav h.trustedKeys.symm hfresh
                    (hmatches.trans hfresh)
                    (fun p hp => hretains pkg hpkg ra ha hverified hfresh p hp) hprev

end

/-! ## The snapshot of sources that are observed again -/

/-- The sources of a snapshot and the same sources at the next refresh. -/
structure Again (L : Library) (now now' : String → Int) (a b : Input) : Prop where
  same : Reobserved a b
  named : a.Named
  retains : a.RetainsServices L
  verdicts : a.SameVerdicts L now now'
  carries : Carries L a b

section

variable {L : Library} {now now' : String → Int} {a b : Input}

theorem Again.packages (h : Again L now now' a b) : (b.packages.map Resource.name).Nodup :=
  (h.same.packages.map _).nodup_iff.mp h.named.packages

theorem Again.offer_eq (h : Again L now now' a b) {pkg : Resource} (hpkg : pkg ∈ a.packages) :
    offer L now' b pkg = offer L now a pkg := by
  have hfirst : (official pkg && (verifyOfficialModule L pkg a.trustedKeys (now' pkg.name)).isNone) =
      (official pkg && (verifyOfficialModule L pkg a.trustedKeys (now pkg.name)).isNone) := by
    cases hofficial : official pkg with
    | false => rfl
    | true => rw [h.verdicts pkg hpkg hofficial]
  have hchecks : installChecks L (now' pkg.name) pkg a.trustedKeys =
      installChecks L (now pkg.name) pkg a.trustedKeys := by
    simp only [installChecks, hfirst]
  rw [offer, ← h.same.trustedKeys, installableExtensionFromPackage, hchecks, offer,
    installableExtensionFromPackage]

theorem Again.offers (h : Again L now now' a b) :
    (a.packages.map (offer L now a)).Perm (b.packages.map (offer L now' b)) := by
  rw [List.map_congr_left fun pkg hpkg => (h.offer_eq hpkg).symm]
  exact h.same.packages.map _

theorem Again.candidates (h : Again L now now' a b) :
    (unrevised L now' b).installableExtensions = (unrevised L now a).installableExtensions := by
  show sortOn _ (draft L now' b).candidates = sortOn _ (draft L now a).candidates
  rw [draft_candidates, draft_candidates, looked_eq h.packages, looked_eq h.named.packages]
  refine (sortOn_eq_of_perm (successes_perm h.offers) ?_).symm
  intro c hc c' hc' heq
  exact candidates_distinct h.named.toDistinct hc hc' heq

theorem publish_id {pkg : Resource} {p : Plugin} (h : (publish L a pkg).1 = some p) :
    p.id = pkg.name := by
  rcases publish_cases h with ⟨-, -, hid, -⟩ | ⟨-, -, -, hid, -⟩
  · exact hid
  · exact hid

theorem plugins_distinct (h : a.Named) {p q : Plugin} (hp : p ∈ (draft L now a).plugins)
    (hq : q ∈ (draft L now a).plugins) (heq : p.id = q.id) : p = q := by
  rw [draft_plugins, looked_eq h.packages] at hp hq
  obtain ⟨x, hx, hpub⟩ := List.mem_flatMap.mp hp
  obtain ⟨y, hy, hpub'⟩ := List.mem_flatMap.mp hq
  have hpub := Option.mem_toList.mp hpub
  have hpub' := Option.mem_toList.mp hpub'
  have hname : x.name = y.name := by rw [← publish_id hpub, heq, publish_id hpub']
  rw [h.package hx hy hname] at hpub
  exact Option.some.inj (hpub.symm.trans hpub')

theorem map_toList {α β : Type} (f : α → β) (x : Option α) : x.toList.map f = (x.map f).toList := by
  cases x <;> rfl

theorem Again.plugins (h : Again L now now' a b) :
    (unrevised L now' b).plugins.map Plugin.unobserved =
      (unrevised L now a).plugins.map Plugin.unobserved := by
  have hsort : ∀ l : List Plugin,
      (sortOn Plugin.id l).map Plugin.unobserved = sortOn Plugin.id (l.map Plugin.unobserved) :=
    fun l => List.map_insertionSort _ _ _ _ fun _ _ _ _ => Iff.rfl
  have hperm : ((draft L now a).plugins.map Plugin.unobserved).Perm
      ((draft L now' b).plugins.map Plugin.unobserved) := by
    rw [draft_plugins, draft_plugins, looked_eq h.packages, looked_eq h.named.packages,
      List.map_flatMap, List.map_flatMap]
    rw [List.flatMap_congr fun pkg hpkg => by
      rw [map_toList, ← (publish_again h.same h.named h.retains h.carries hpkg).1, ← map_toList]]
    exact h.same.packages.flatMap_right _
  show (sortOn _ (draft L now' b).plugins).map _ = (sortOn _ (draft L now a).plugins).map _
  rw [hsort, hsort]
  refine (sortOn_eq_of_perm hperm ?_).symm
  intro p hp q hq heq
  obtain ⟨p', hp', rfl⟩ := List.mem_map.mp hp
  obtain ⟨q', hq', rfl⟩ := List.mem_map.mp hq
  have hid : p'.id = q'.id := heq
  rw [plugins_distinct h.named hp' hq' hid]

theorem Again.objects (h : Again L now now' a b) :
    catalogObjects b.descriptors = catalogObjects a.descriptors := by
  refine (sortOn_eq_of_perm (h.same.descriptors.map _) ?_).symm
  intro x hx y hy heq
  obtain ⟨p, hp, rfl⟩ := List.mem_map.mp hx
  obtain ⟨q, hq, rfl⟩ := List.mem_map.mp hy
  rw [List.inj_on_of_nodup_map h.named.descriptors hp hq heq]

/-! ### The inventory -/

theorem Again.coreResults (h : Again L now now' a b) :
    (coreResults a).Perm (coreResults b) := by
  have hsame : coreDescriptor b = coreDescriptor a := by
    funext c
    unfold coreDescriptor
    rw [h.same.channel, h.same.version]
  unfold Catalog.coreResults
  rw [hsame]
  exact h.same.components.map _

theorem Again.moduleResults (h : Again L now now' a b) :
    (moduleResults a).Perm (moduleResults b) := h.same.descriptors.map _

theorem Again.sorted (h : Again L now now' a b) :
    sorted b (unrevised L now' b).installableExtensions =
      sorted a (unrevised L now a).installableExtensions := by
  rw [h.candidates]
  refine (sortOn_eq_of_perm ?_ fun d hd d' hd' => listed_distinct h.named.toDistinct hd hd').symm
  exact ((successes_perm h.coreResults).append_right _).append (successes_perm h.moduleResults)

theorem Again.gaps (h : Again L now now' a b) : (sourceGaps L now a).Perm (sourceGaps L now' b) := by
  have hrejections : (draft L now a).candidateRejections.Perm (draft L now' b).candidateRejections := by
    rw [(draft_rejected h.named.packages).2, (draft_rejected h.packages).2]
    exact failures_perm h.offers
  unfold sourceGaps Catalog.gaps
  rw [h.sorted]
  exact (((failures_perm h.coreResults).append (hrejections.map _)).append
    (failures_perm h.moduleResults)).append_right _

theorem Again.inventory (h : Again L now now' a b) :
    (unrevised L now' b).inventory = (unrevised L now a).inventory := by
  have hmissing : sortOn CoverageGap.key (sourceGaps L now' b) =
      sortOn CoverageGap.key (sourceGaps L now a) := by
    refine (sortOn_eq_of_perm h.gaps ?_).symm
    intro g hg g' hg' heq
    have hpair := Prod.mk.inj (toLex_inj.mp heq)
    exact (gapOrigin h.named.toDistinct hg).distinct h.named.toDistinct (gapOrigin h.named.toDistinct hg') hpair.1 hpair.2
  have hcount : ∀ c : Class, (sourceGaps L now' b).countP (·.cls = c) =
      (sourceGaps L now a).countP (·.cls = c) := fun c => (h.gaps.countP_eq _).symm
  have hexpected : b.expected = a.expected := by
    funext c
    cases c with
    | coreService => exact congrArg Int.ofNat h.same.components.length_eq.symm
    | extension => exact congrArg Int.ofNat h.same.packages.length_eq.symm
    | installableModule => exact congrArg Int.ofNat h.same.descriptors.length_eq.symm
  show (buildInventory b (unrevised L now' b).installableExtensions _).1 =
    (buildInventory a (unrevised L now a).installableExtensions _).1
  rw [buildInventory_eq, buildInventory_eq, h.sorted, hexpected]
  change inventoryOf _ _ (sourceGaps L now' b) = inventoryOf _ _ (sourceGaps L now a)
  simp only [inventoryOf, hmissing, hcount]

/-! ### The reports -/

def reports (L : Library) (now : String → Int) (a : Input) : List Rejected :=
  (draft L now a).rejected ++ (buildInventory a (unrevised L now a).installableExtensions
    (draft L now a).candidateRejections).2

theorem Again.reports (h : Again L now now' a b) : (reports L now a).Perm (reports L now' b) := by
  unfold Catalog.reports
  rw [buildInventory_reports, buildInventory_reports, h.sorted, (draft_rejected h.named.packages).1,
    (draft_rejected h.packages).1]
  refine List.Perm.append ?_ ?_
  · have hbody : ∀ pkg ∈ a.packages,
        failures [offer L now a pkg] ++ (publish L a pkg).2.toList =
          failures [offer L now' b pkg] ++ (publish L b pkg).2.toList := by
      intro pkg hpkg
      rw [h.offer_eq hpkg, (publish_again h.same h.named h.retains h.carries hpkg).2]
    refine (List.Perm.of_eq (List.flatMap_congr hbody)).trans ?_
    exact h.same.packages.flatMap_right _
  · exact (((failures_perm h.coreResults).append (failures_perm h.moduleResults)).append_right _).map _

theorem report_origin (h : a.Named) {r : Rejected} (hr : r ∈ reports L now a) :
    (∃ pkg ∈ a.packages, offer L now a pkg = .error r) ∨
      (∃ pkg ∈ a.packages, (publish L a pkg).2 = some r) ∨
      ∃ g, GapOrigin L now a g ∧ r = g.rejected ∧
        (g.cls ≠ .extension ∨ g.code = "DuplicateIdentity") := by
  rw [reports, List.mem_append, (draft_rejected h.packages).1, buildInventory_reports] at hr
  rcases hr with hr | hr
  · obtain ⟨pkg, hpkg, hr⟩ := List.mem_flatMap.mp hr
    rcases List.mem_append.mp hr with hr | hr
    · exact .inl ⟨pkg, hpkg, (List.mem_singleton.mp (mem_failures.mp hr)).symm⟩
    · exact .inr (.inl ⟨pkg, hpkg, Option.mem_toList.mp hr⟩)
  · obtain ⟨g, hg, rfl⟩ := List.mem_map.mp hr
    rw [List.mem_append, List.mem_append] at hg
    rcases hg with (hg | hg) | hg
    · obtain ⟨c, -, herror⟩ := List.mem_map.mp (mem_failures.mp hg)
      refine .inr (.inr ⟨g, .core c herror, rfl, .inl ?_⟩)
      rw [(coreDescriptor_error herror).1]
      decide
    · obtain ⟨item, -, herror⟩ := List.mem_map.mp (mem_failures.mp hg)
      refine .inr (.inr ⟨g, .module item herror, rfl, .inl ?_⟩)
      rw [moduleDescriptor_error herror]
      exact Class.noConfusion
    · obtain ⟨d, hd, rfl⟩ := List.mem_map.mp hg
      exact .inr (.inr ⟨_, .collision d (mem_sortOn.mp (List.mem_of_mem_filter hd)) rfl, rfl, .inr rfl⟩)

theorem Class.text_injective {c c' : Class} (h : c.text = c'.text) : c = c' := by
  cases c <;> cases c' <;> first | rfl | exact absurd h (by decide)

theorem package_ne_gap {r r' : Rejected} (hkind : r.kind = "extension")
    (hdup : r.code ≠ "DuplicateIdentity") {g : CoverageGap} (hr' : r' = g.rejected)
    (hg : g.cls ≠ .extension ∨ g.code = "DuplicateIdentity") (hk : r.kind = r'.kind)
    (hc : r.code = r'.code) : False := by
  subst hr'
  rcases hg with hg | hg
  · exact hg (Class.text_injective (hk.symm.trans hkind))
  · exact hdup (hc.trans hg)

theorem reports_distinct (h : a.Named) {r r' : Rejected} (hr : r ∈ reports L now a)
    (hr' : r' ∈ reports L now a) (heq : r.key = r'.key) : r = r' := by
  have hkey := Prod.mk.inj (toLex_inj.mp heq)
  have hk : r.kind = r'.kind := hkey.1
  have hrest := Prod.mk.inj (toLex_inj.mp hkey.2)
  have hid : r.id = r'.id := hrest.1
  have hc : r.code = r'.code := hrest.2
  rcases report_origin h hr with ⟨p, hp, hoffer⟩ | ⟨p, hp, hpub⟩ | ⟨g, hg, hrg, hcls⟩ <;>
    rcases report_origin h hr' with ⟨q, hq, hoffer'⟩ | ⟨q, hq, hpub'⟩ | ⟨g', hg', hrg', hcls'⟩
  · have hname : p.name = q.name := String.append_right_inj _ |>.mp
      ((offer_error hoffer).2.1.symm.trans (hid.trans (offer_error hoffer').2.1))
    rw [h.package hp hq hname] at hoffer
    exact Except.error.inj (hoffer.symm.trans hoffer')
  · have hname := (offer_error hoffer).2.1.symm.trans (hid.trans (publish_report hpub').2.1)
    exact absurd hname.symm (h.reports q hq p hp)
  · exact (package_ne_gap (offer_error hoffer).1 (offer_error hoffer).2.2 hrg' hcls' hk hc).elim
  · have hname := (publish_report hpub).2.1.symm.trans (hid.trans (offer_error hoffer').2.1)
    exact absurd hname (h.reports p hp q hq)
  · have hname := (publish_report hpub).2.1.symm.trans (hid.trans (publish_report hpub').2.1)
    rw [h.package hp hq hname] at hpub
    exact Option.some.inj (hpub.symm.trans hpub')
  · exact (package_ne_gap (publish_report hpub).1 (publish_report hpub).2.2 hrg' hcls' hk hc).elim
  · exact (package_ne_gap (offer_error hoffer').1 (offer_error hoffer').2.2 hrg hcls hk.symm
      hc.symm).elim
  · exact (package_ne_gap (publish_report hpub').1 (publish_report hpub').2.2 hrg hcls hk.symm
      hc.symm).elim
  · rw [hrg, hrg'] at hid hc ⊢
    rw [hg.distinct h.toDistinct hg' hid hc]

theorem Again.rejected (h : Again L now now' a b) :
    (unrevised L now' b).rejected = (unrevised L now a).rejected :=
  (sortOn_eq_of_perm h.reports fun _ hr _ hr' => reports_distinct h.named hr hr').symm

/-! ### The content -/

theorem Again.content (h : Again L now now' a b) :
    (unrevised L now' b).content = (unrevised L now a).content := by
  have hplugins := h.plugins
  have hjson : ((unrevised L now' b).plugins.map fun p => p.unobserved.json) =
      (unrevised L now a).plugins.map fun p => p.unobserved.json := by
    have hmap := congrArg (List.map Plugin.json) hplugins
    rwa [List.map_map, List.map_map] at hmap
  have hnil : (unrevised L now' b).plugins = [] ↔ (unrevised L now a).plugins = [] := by
    rw [← List.map_eq_nil_iff (f := Plugin.unobserved), hplugins, List.map_eq_nil_iff]
  have hkeys : (unrevised L now' b).trustedKeys = (unrevised L now a).trustedKeys :=
    h.same.trustedKeys.symm
  have hobjects : (unrevised L now' b).objects = (unrevised L now a).objects := h.objects
  unfold Response.content
  rw [hkeys, h.candidates, hobjects, h.inventory, h.rejected]
  congr 4
  cases hb : (unrevised L now' b).plugins with
  | nil => rw [hnil.mp hb]
  | cons p ps =>
      cases ha : (unrevised L now a).plugins with
      | nil =>
          rw [hnil.mpr ha] at hb
          cases hb
      | cons q qs =>
          rw [ha, hb] at hjson
          exact congrArg (fun l => ("plugins", Value.array (.ofList l))) hjson

/-! ## Runs -/

theorem publish_ids_sublist (pkgs : List Resource) :
    ((pkgs.flatMap fun pkg => (publish L a pkg).1.toList).map Plugin.id).Sublist
      (pkgs.map Resource.name) := by
  induction pkgs with
  | nil => exact .slnil
  | cons pkg pkgs ih =>
      rw [List.flatMap_cons, List.map_append, List.map_cons]
      cases hpub : (publish L a pkg).1 with
      | none => exact ih.cons _
      | some p =>
          rw [Option.toList_some, List.map_singleton, publish_id hpub]
          exact ih.cons₂ _

theorem plugins_nodup (h : a.Named) : ((unrevised L now a).plugins.map Plugin.id).Nodup := by
  have hperm : ((unrevised L now a).plugins.map Plugin.id).Perm
      ((draft L now a).plugins.map Plugin.id) := (sortOn_perm _ _).map _
  rw [hperm.nodup_iff, draft_plugins, looked_eq h.packages]
  exact (publish_ids_sublist a.packages).nodup h.packages

/-- A snapshot that holds the plugins of the sources up to times carries them. -/
theorem carries_of_plugins (h : a.Named) (hprev : b.previousPlugins.map Plugin.unobserved =
    (unrevised L now a).plugins.map Plugin.unobserved) : Carries L a b := by
  intro pkg hpkg
  have hfind : ∀ l : List Plugin, (l.reverse.find? fun p => p.id = pkg.name).map Plugin.unobserved =
      (l.map Plugin.unobserved).reverse.find? fun p => p.id = pkg.name := by
    intro l
    rw [← List.map_reverse, List.find?_map]
    rfl
  have hpublished : ((unrevised L now a).plugins.reverse.find? fun p => p.id = pkg.name) =
      (publish L a pkg).1 := by
    ext p
    rw [find_reverse_iff (plugins_nodup h)]
    constructor
    · rintro ⟨hp, hid⟩
      have hp := mem_sortOn.mp hp
      rw [draft_plugins, looked_eq h.packages] at hp
      obtain ⟨q, hq, hpub⟩ := List.mem_flatMap.mp hp
      have hpub := Option.mem_toList.mp hpub
      rwa [h.package hq hpkg ((publish_id hpub).symm.trans hid)] at hpub
    · intro hpub
      refine ⟨mem_sortOn.mpr ?_, publish_id hpub⟩
      rw [draft_plugins, looked_eq h.packages]
      exact List.mem_flatMap.mpr ⟨pkg, hpkg, Option.mem_toList.mpr hpub⟩
  rw [Input.previous, hfind, hprev, ← hfind, hpublished]

theorem build_eq (h : a.components ≠ []) :
    build L now a = .ok ((unrevised L now a).revised L) := by
  unfold build
  rw [if_neg (by simpa using h)]

end

theorem refresh_again {L : Library} {s s' : Store} {r r' : Refresh} {a : Input} {next now : Response}
    (hcomponents : a.components ≠ []) (hnamed : a.Named) (hretains : (s.input a).RetainsServices L)
    (hnext : build L r.looked (s.input a) = .ok next) (hnow : s'.snapshot = some now)
    (hplugins : now.plugins.map Plugin.unobserved = next.plugins.map Plugin.unobserved)
    (hrevision : now.revision = next.revision)
    (hmore : ∀ b ∈ r'.loaded, Reobserved a b ∧ a.SameVerdicts L r.looked r'.looked) :
    ∃ now', (s'.refresh L r').snapshot = some now' ∧
      now'.plugins.map Plugin.unobserved = next.plugins.map Plugin.unobserved ∧
      now'.revision = next.revision := by
  cases hload : r'.loaded with
  | none =>
      refine ⟨now, ?_, hplugins, hrevision⟩
      rw [Store.refresh, hload]
      exact hnow
  | some b =>
      obtain ⟨hsame, hverdicts⟩ := hmore b hload
      have hcomponents' : (s'.input b).components ≠ [] := by
        intro hnil
        exact hcomponents (List.perm_nil.mp (hnil ▸ hsame.components))
      have hfirst : (s.input a).components ≠ [] := hcomponents
      rw [build_eq hfirst] at hnext
      obtain rfl := Except.ok.inj hnext
      have hnamed' : (s.input a).Named :=
        ⟨⟨hnamed.packages, hnamed.registrations, hnamed.descriptors, hnamed.components⟩,
          hnamed.reports⟩
      have hprev : (s'.input b).previousPlugins.map Plugin.unobserved =
          (unrevised L r.looked (s.input a)).plugins.map Plugin.unobserved := by
        rw [Store.input, hnow]
        exact hplugins
      have hagain : Again L r.looked r'.looked (s.input a) (s'.input b) :=
        { same := ⟨hsame.packages, hsame.registrations, hsame.descriptors, hsame.components,
            hsame.channel, hsame.version, hsame.trustedKeys, hsame.navigation⟩
          named := hnamed'
          retains := hretains
          verdicts := hverdicts
          carries := carries_of_plugins hnamed' hprev }
      refine ⟨(unrevised L r'.looked (s'.input b)).revised L, ?_, hagain.plugins,
        congrArg (revisionOf L) hagain.content⟩
      rw [Store.refresh, hload, Option.map_some, build_eq hcomponents']

/-- **The revision is semantic.**  A refresh publishes a snapshot of some sources, after any refreshes
before it.  If the objects have names of their own and the registrations know the Services of the
plugins that are replaced, then every further refresh that observes the same sources, in any order
and with other times, leaves the revision as it is. -/
theorem revision_semantic (L : Library) (front : List Refresh) (r : Refresh) (a : Input)
    (more : List Refresh) (hload : r.loaded = some a) (hcomponents : a.components ≠ [])
    (hnamed : a.Named) (hretains : ((Store.new.run L front).input a).RetainsServices L)
    (hmore : ∀ r' ∈ more, ∀ b ∈ r'.loaded, Reobserved a b ∧ a.SameVerdicts L r.looked r'.looked) :
    ∃ revision, ∀ later, later <+: more →
      (Store.new.run L (front ++ r :: later)).snapshot.map Response.revision = some revision := by
  have hnonempty : ((Store.new.run L front).input a).components ≠ [] := hcomponents
  have hnext : build L r.looked ((Store.new.run L front).input a) = _ := build_eq hnonempty
  generalize (unrevised L r.looked ((Store.new.run L front).input a)).revised L = next at hnext
  have hfirst : ((Store.new.run L front).refresh L r).snapshot = some next := by
    rw [Store.refresh, hload, Option.map_some, hnext]
  refine ⟨next.revision, fun later hlater => ?_⟩
  -- the snapshot after each refresh has the plugins of the first up to times
  have hrun : ∀ later, (∀ r' ∈ later, r' ∈ more) →
      ∃ now, (Store.new.run L (front ++ r :: later)).snapshot = some now ∧
        now.plugins.map Plugin.unobserved = next.plugins.map Plugin.unobserved ∧
        now.revision = next.revision := by
    intro later
    induction later using List.reverseRecOn with
    | nil =>
        intro _
        refine ⟨next, ?_, rfl, rfl⟩
        rw [Store.run, List.foldl_append]
        exact hfirst
    | append_singleton later r' ih =>
        intro hmem
        obtain ⟨now, hnow, hplugins, hrevision⟩ := ih fun x hx => hmem x (by simp [hx])
        have hstep := refresh_again hcomponents hnamed hretains hnext hnow hplugins hrevision
          (hmore r' (hmem r' (by simp)))
        have hlist : front ++ r :: (later ++ [r']) = (front ++ r :: later) ++ [r'] := by simp
        rw [hlist, Store.run, List.foldl_append]
        exact hstep
  obtain ⟨now, hnow, -, hrevision⟩ := hrun later fun x hx => hlater.subset hx
  rw [hnow, Option.map_some, hrevision]

namespace Demo

def served (service : String) : Input :=
  sources (package ("sha256:" ++ digits 64 'a')) (registration service) "key-1"

/-- A refresh with the sources while a release is served by a Service. -/
def observe (service : String) (done : Int) : Refresh := ⟨some (served service), fun _ => 0, done⟩

end Demo

/-- Two more refreshes leave the revision of the first. -/
theorem unchanged_revision : ∃ revision, ∀ later, later <+: [Demo.observe "postgres-r-1" 1,
    Demo.observe "postgres-r-1" 2] →
    (Store.new.run Demo.library ([] ++ Demo.observe "postgres-r-1" 0 :: later)).snapshot.map
      Response.revision = some revision := by
  refine revision_semantic Demo.library [] (Demo.observe "postgres-r-1" 0) (Demo.served "postgres-r-1")
    _ rfl (by simp [Demo.served, Demo.sources]) ⟨⟨by decide, by decide, by decide, by decide⟩, by decide⟩ ?_ ?_
  · intro pkg _ reg _ _ _ prior hprior
    cases hprior
  · intro r' hr' b hb
    have hloaded : r'.loaded = some (Demo.served "postgres-r-1") := by
      rcases List.mem_pair.mp hr' with rfl | rfl <;> rfl
    obtain rfl := Option.some.inj (hloaded.symm.trans hb)
    refine ⟨⟨.refl _, ⟨_, .refl _, ?_⟩, .refl _, .refl _, rfl, rfl, rfl, rfl⟩, ?_⟩
    · exact List.forall₂_same.mpr fun reg _ => ⟨rfl, rfl, rfl, fun _ _ _ => rfl⟩
    · intro pkg hpkg hofficial
      rw [List.mem_singleton.mp hpkg] at hofficial
      exact absurd hofficial (by decide)

theorem Demo.revisionOf_eq (x : Value) : revisionOf Demo.library x = "sha256:" ++
    ConsoleIdentity.encodeHex (List.replicate 31 0 ++
      [UInt8.ofNat (x.stringify.flatMap escapeHtml).length]) := by
  show "sha256:" ++ ConsoleIdentity.encodeHex (List.replicate 31 0 ++
    [UInt8.ofNat (Sql.chars (marshal x)).length]) = _
  rw [marshal, Sql.chars_ofList]

/-- After the Service of a plugin has changed, the same sources are observed twice and the revision
changes. -/
theorem revision_changes :
    (Store.new.run Demo.library [Demo.observe "postgres-r-1" 0, Demo.observe "postgres-r-2" 1,
        Demo.observe "postgres-r-2" 2]).snapshot.map Response.revision ≠
      (Store.new.run Demo.library [Demo.observe "postgres-r-1" 0,
        Demo.observe "postgres-r-2" 1]).snapshot.map Response.revision := by
  have hrevision : ∀ s : Store, s.snapshot.map (fun r => (r.revised Demo.library).revision) =
      s.snapshot.map fun r => "sha256:" ++ ConsoleIdentity.encodeHex (List.replicate 31 0 ++
        [UInt8.ofNat (r.content.stringify.flatMap escapeHtml).length]) := by
    intro s
    simp only [Response.revised, Demo.revisionOf_eq]
  have hthird := hrevision (Store.new.run Demo.library [Demo.observe "postgres-r-1" 0,
    Demo.observe "postgres-r-2" 1, Demo.observe "postgres-r-2" 2])
  have hsecond := hrevision (Store.new.run Demo.library [Demo.observe "postgres-r-1" 0,
    Demo.observe "postgres-r-2" 1])
  intro heq
  have hlengths := hthird.symm.trans (Eq.trans heq hsecond)
  revert hlengths
  decide +kernel

end Catalog
