import OpenSphere.Catalog.Loop

/-!
# Where the entries of a snapshot come from

The objects of the cluster have names of their own, and so have the entries that a snapshot makes of
them: the first letter of an id tells its class, and the rest is the name of an object.
-/

open Js (Members)

namespace Catalog

variable {α : Type} {d : Descriptor} {g : CoverageGap} {item pkg : Resource} {r : Rejected}
  {keys : List (String × String)} {c : Class}

/-- Objects of one kind have different names. -/
structure Input.Distinct (input : Input) : Prop where
  packages : (input.packages.map Resource.name).Nodup
  registrations : (input.registrations.map Resource.name).Nodup
  descriptors : (input.descriptors.map Resource.name).Nodup
  components : (input.components.map Prod.fst).Nodup

/-- Where no two elements have the same name, the last of a name is the only one. -/
theorem find_reverse_iff {name : α → String} {l : List α} (h : (l.map name).Nodup)
    {k : String} {x : α} :
    l.reverse.find? (fun y => name y = k) = some x ↔ x ∈ l ∧ name x = k := by
  constructor
  · intro hfind
    have hname := List.find?_some hfind
    exact ⟨List.mem_reverse.mp (List.mem_of_find?_eq_some hfind), by simpa using hname⟩
  · rintro ⟨hmem, hname⟩
    cases hfind : l.reverse.find? (fun y => name y = k) with
    | none =>
        have hnone := List.find?_eq_none.mp hfind x (List.mem_reverse.mpr hmem)
        exact absurd hname (by simpa using hnone)
    | some y =>
        have hy := List.find?_some hfind
        have hmem' := List.mem_reverse.mp (List.mem_of_find?_eq_some hfind)
        rw [List.inj_on_of_nodup_map h hmem' hmem (by simpa [hname] using hy)]

/-! ## What is reported, by its origin -/

section

variable {L : Library} {input : Input} {now : Int}

/-- The first letter of the id of a descriptor or a gap tells its class. -/
def Class.initial : Class → Char
  | .coreService => 'c'
  | .extension => 'e'
  | .installableModule => 'f'

theorem Class.initial_injective {c' : Class} (h : c.initial = c'.initial) : c = c' := by
  cases c <;> cases c' <;> first | rfl | cases h

def OfClass (c : Class) (id : String) : Prop := (Sql.chars id).head? = some c.initial

theorem OfClass.eq {c' : Class} {id : String} (h : OfClass c id) (h' : OfClass c' id) : c = c' :=
  Class.initial_injective (Option.some.inj (h.symm.trans h'))

theorem ofClass_append {s : String} (h : OfClass c s) (t : String) : OfClass c (s ++ t) := by
  unfold OfClass at h ⊢
  rw [Sql.chars_eq, String.toList_append, List.head?_append, ← Sql.chars_eq, h]
  rfl

theorem extension_ofClass (id : String) : OfClass .extension ("extension." ++ id) :=
  ofClass_append (by unfold OfClass; decide) id

theorem foundation_ofClass (id : String) : OfClass .installableModule ("foundation." ++ id) :=
  ofClass_append (by unfold OfClass; decide) id

theorem mem_of_lookup {m : List (String × α)} {k : String} {x : α}
    (h : m.lookup k = some x) : (k, x) ∈ m := by
  obtain ⟨l, l', rfl, -⟩ := List.lookup_eq_some_iff.mp h
  simp

theorem metadata_ofClass {name : String} {m : CoreServiceMetadata}
    (h : coreServices.lookup name = some m) : OfClass .coreService m.id := by
  have hall : (coreServices.all fun e => (Sql.chars e.2.id).head? == some 'c') = true := by decide
  have hmem := List.all_eq_true.mp hall _ (mem_of_lookup h)
  exact beq_iff_eq.mp hmem

/-- No two components have the same id. -/
theorem metadata_injective {name name' : String} {m m' : CoreServiceMetadata}
    (h : coreServices.lookup name = some m) (h' : coreServices.lookup name' = some m')
    (hid : m.id = m'.id) : name = name' := by
  have hnodup : (coreServices.map fun e => e.2.id).Nodup := by decide
  have heq := List.inj_on_of_nodup_map hnodup (mem_of_lookup h)
    (mem_of_lookup h') hid
  exact congrArg Prod.fst heq

theorem coreDescriptor_error {c : String × ReleaseComponent}
    (h : coreDescriptor input c = .error g) :
    g.cls = .coreService ∧ OfClass .coreService g.id ∧ g.code ≠ "DuplicateIdentity" ∧
      g.message = if g.code = "DescriptorMissing" then
        "release component has no Registry metadata adapter"
        else "canonical release component lacks exact release evidence" := by
  unfold coreDescriptor at h
  split at h
  · obtain rfl := Except.error.inj h
    exact ⟨rfl, ofClass_append (by unfold OfClass; decide) _, by simp, rfl⟩
  · rename_i m hm
    simp only at h
    split at h
    · obtain rfl := Except.error.inj h
      refine ⟨rfl, metadata_ofClass hm, ?_, ?_⟩
      · show (if _ then "DigestMissing" else "ReleaseEvidenceMissing") ≠ _
        split <;> decide
      · show _ = if (if _ then "DigestMissing" else "ReleaseEvidenceMissing") = "DescriptorMissing" then _ else _
        split <;> rfl
    · cases h

theorem coreDescriptor_ok {c : String × ReleaseComponent}
    (h : coreDescriptor input c = .ok d) :
    ∃ m, coreServices.lookup c.1 = some m ∧ d.id = m.id ∧ OfClass .coreService d.id := by
  unfold coreDescriptor at h
  split at h
  · cases h
  · rename_i m hm
    simp only at h
    split at h
    · cases h
    · obtain rfl := Except.ok.inj h
      exact ⟨m, hm, rfl, metadata_ofClass hm⟩

theorem coreDescriptor_cls {c : String × ReleaseComponent}
    (h : coreDescriptor input c = .ok d) : d.cls = .coreService := by
  unfold coreDescriptor at h
  simp only at h
  repeat' split at h
  all_goals cases h
  rfl

theorem moduleDescriptor_cls (h : moduleDescriptor item = .ok d) :
    d.cls = .installableModule := by
  unfold moduleDescriptor at h
  simp only at h
  split at h
  · cases h
  · obtain rfl := Except.ok.inj h
    rfl

theorem moduleDescriptor_error
    (h : moduleDescriptor item = .error g) :
    g = ⟨"foundation." ++ item.name, .installableModule, "DigestMissing",
      "Foundation descriptor does not identify one exact-digest installable artifact"⟩ := by
  unfold moduleDescriptor at h
  simp only at h
  split at h
  · exact (Except.error.inj h).symm
  · cases h

theorem moduleDescriptor_ok (h : moduleDescriptor item = .ok d) :
    d.id = "foundation." ++ item.name := by
  unfold moduleDescriptor at h
  simp only at h
  split at h
  · cases h
  · obtain rfl := Except.ok.inj h
    rfl

theorem installChecks_code :
    ∀ check ∈ installChecks L now pkg keys, check.code ≠ "DuplicateIdentity" := by
  simp [installChecks]

theorem pluginChecks_code {plugin : Plugin} :
    ∀ check ∈ pluginChecks pkg plugin, check.code ≠ "DuplicateIdentity" := by
  simp [pluginChecks]

theorem offer_error
    (h : installableExtensionFromPackage L now pkg keys = .error r) :
    r.kind = "extension" ∧ r.id = "extension." ++ pkg.name ∧ r.code ≠ "DuplicateIdentity" := by
  unfold installableExtensionFromPackage at h
  split at h
  · rename_i check hcheck
    obtain rfl := Except.error.inj h
    exact ⟨rfl, rfl, installChecks_code check (List.mem_of_find?_eq_some hcheck)⟩
  · cases h

theorem offer_ok {c : ExtensionCandidate}
    (h : installableExtensionFromPackage L now pkg keys = .ok c) : c = candidateOf pkg := by
  unfold installableExtensionFromPackage at h
  split at h
  · cases h
  · exact (Except.ok.inj h).symm

theorem pluginFrom_error {reg : Resource} {nav : Members} {prior : Option Plugin}
    (h : pluginFrom L pkg reg nav prior = .error r) :
    r.kind = "extension" ∧ r.id = pkg.name ∧ r.code ≠ "DuplicateIdentity" := by
  unfold pluginFrom at h
  simp only at h
  split at h
  · rename_i check hcheck
    obtain rfl := Except.error.inj h
    exact ⟨rfl, rfl, pluginChecks_code check (List.mem_of_find?_eq_some hcheck)⟩
  · cases h

theorem publish_report (h : (publish L input pkg).2 = some r) :
    r.kind = "extension" ∧ r.id = pkg.name ∧ r.code ≠ "DuplicateIdentity" := by
  unfold publish at h
  simp only at h
  repeat' split at h
  all_goals cases h
  · exact ⟨rfl, rfl, by simp [Rejected.extension]⟩
  · exact ⟨rfl, rfl, by simp [Rejected.extension]⟩
  · rename_i reason hreason
    exact pluginFrom_error hreason
  · exact ⟨rfl, rfl, by simp [Rejected.extension]⟩

end

section

variable {L : Library} {now : String → Int} {a : Input}

def offer (L : Library) (now : String → Int) (input : Input) (pkg : Resource) :
    Except Rejected ExtensionCandidate :=
  installableExtensionFromPackage L (now pkg.name) pkg input.trustedKeys

theorem Input.Distinct.package (h : a.Distinct) {p q : Resource} (hp : p ∈ a.packages)
    (hq : q ∈ a.packages) (heq : p.name = q.name) : p = q :=
  List.inj_on_of_nodup_map h.packages hp hq heq

theorem candidates_distinct (h : a.Distinct) {c c' : ExtensionCandidate}
    (hc : c ∈ successes (a.packages.map (offer L now a)))
    (hc' : c' ∈ successes (a.packages.map (offer L now a))) (heq : c.id = c'.id) : c = c' := by
  obtain ⟨p, hp, hoffer⟩ := List.mem_map.mp (mem_successes.mp hc)
  obtain ⟨q, hq, hoffer'⟩ := List.mem_map.mp (mem_successes.mp hc')
  rw [offer_ok hoffer, offer_ok hoffer'] at heq ⊢
  rw [h.package hp hq heq]

/-! ## Descriptors and gaps -/

def coreResults (input : Input) : List (Except CoverageGap Descriptor) :=
  input.components.map (coreDescriptor input)

def moduleResults (input : Input) : List (Except CoverageGap Descriptor) :=
  input.descriptors.map moduleDescriptor

def listed (input : Input) (candidates : List ExtensionCandidate) : List Descriptor :=
  successes (coreResults input) ++ candidates.map candidateDescriptor ++ successes (moduleResults input)

theorem listed_distinct (h : a.Distinct) {d' : Descriptor}
    (hd : d ∈ listed a (unrevised L now a).installableExtensions)
    (hd' : d' ∈ listed a (unrevised L now a).installableExtensions) (heq : d.id = d'.id) : d = d' := by
  have horigin : ∀ x ∈ listed a (unrevised L now a).installableExtensions,
      (∃ c ∈ a.components, coreDescriptor a c = .ok x) ∨
      (∃ pkg ∈ a.packages, x = candidateDescriptor (candidateOf pkg)) ∨
      ∃ item ∈ a.descriptors, moduleDescriptor item = .ok x := by
    intro x hx
    rcases List.mem_append.mp hx with hx | hx
    · rcases List.mem_append.mp hx with hx | hx
      · exact .inl (List.mem_map.mp (mem_successes.mp hx))
      · obtain ⟨c, hc, rfl⟩ := List.mem_map.mp hx
        have hc := mem_sortOn.mp hc
        rw [draft_candidates, looked_eq h.packages] at hc
        obtain ⟨pkg, hpkg, hoffer⟩ := List.mem_map.mp (mem_successes.mp hc)
        exact .inr (.inl ⟨pkg, hpkg, by rw [offer_ok hoffer]⟩)
    · exact .inr (.inr (List.mem_map.mp (mem_successes.mp hx)))
  -- the first letter of the id separates the three kinds
  rcases horigin d hd with ⟨c, hc, hok⟩ | ⟨pkg, hpkg, rfl⟩ | ⟨item, hitem, hok⟩ <;>
    rcases horigin d' hd' with ⟨c', hc', hok'⟩ | ⟨pkg', hpkg', rfl⟩ | ⟨item', hitem', hok'⟩
  · obtain ⟨m, hm, hid, -⟩ := coreDescriptor_ok hok
    obtain ⟨m', hm', hid', -⟩ := coreDescriptor_ok hok'
    have hname : c.1 = c'.1 := metadata_injective hm hm' (by rw [← hid, ← hid', heq])
    rw [List.inj_on_of_nodup_map h.components hc hc' hname, hok'] at hok
    exact (Except.ok.inj hok).symm
  · obtain ⟨-, -, -, hclass⟩ := coreDescriptor_ok hok
    rw [heq] at hclass
    cases hclass.eq (extension_ofClass pkg'.name)
  · obtain ⟨-, -, -, hclass⟩ := coreDescriptor_ok hok
    rw [heq, moduleDescriptor_ok hok'] at hclass
    cases hclass.eq (foundation_ofClass item'.name)
  · obtain ⟨-, -, -, hclass⟩ := coreDescriptor_ok hok'
    rw [← heq] at hclass
    cases hclass.eq (extension_ofClass pkg.name)
  · have hname : pkg.name = pkg'.name := String.append_right_inj _ |>.mp heq
    rw [h.package hpkg hpkg' hname]
  · rw [moduleDescriptor_ok hok'] at heq
    have hclass := foundation_ofClass item'.name
    rw [← heq] at hclass
    cases hclass.eq (extension_ofClass pkg.name)
  · obtain ⟨-, -, -, hclass⟩ := coreDescriptor_ok hok'
    rw [← heq, moduleDescriptor_ok hok] at hclass
    cases hclass.eq (foundation_ofClass item.name)
  · rw [moduleDescriptor_ok hok] at heq
    have hclass := foundation_ofClass item.name
    rw [heq] at hclass
    cases hclass.eq (extension_ofClass pkg'.name)
  · rw [moduleDescriptor_ok hok, moduleDescriptor_ok hok'] at heq
    have hname : item.name = item'.name := String.append_right_inj _ |>.mp heq
    rw [List.inj_on_of_nodup_map h.descriptors hitem hitem' hname, hok'] at hok
    exact (Except.ok.inj hok).symm

def sorted (input : Input) (candidates : List ExtensionCandidate) : List Descriptor :=
  sortOn Descriptor.id (listed input candidates)

def collisions (ds : List Descriptor) : List CoverageGap :=
  (ds.filter fun d => decide (1 < ds.countP (·.id = d.id))).map collision

def gaps (input : Input) (candidates : List ExtensionCandidate) (rejections : List Rejected) :
    List CoverageGap :=
  failures (coreResults input) ++ rejections.map packageGap ++ failures (moduleResults input) ++
    collisions (sorted input candidates)

def sourceGaps (L : Library) (now : String → Int) (a : Input) : List CoverageGap :=
  gaps a (unrevised L now a).installableExtensions (draft L now a).candidateRejections

inductive GapOrigin (L : Library) (now : String → Int) (a : Input) (g : CoverageGap) : Prop
  | core (c : String × ReleaseComponent) : coreDescriptor a c = .error g → GapOrigin L now a g
  | package (pkg : Resource) (r : Rejected) : pkg ∈ a.packages → offer L now a pkg = .error r →
      g = packageGap r → GapOrigin L now a g
  | module (item : Resource) : moduleDescriptor item = .error g → GapOrigin L now a g
  | collision (d : Descriptor) : d ∈ listed a (unrevised L now a).installableExtensions →
      g = Catalog.collision d → GapOrigin L now a g

theorem gapOrigin (h : a.Distinct) (hg : g ∈ sourceGaps L now a) :
    GapOrigin L now a g := by
  rw [sourceGaps, gaps, List.mem_append, List.mem_append, List.mem_append] at hg
  rcases hg with ((hg | hg) | hg) | hg
  · obtain ⟨c, -, herror⟩ := List.mem_map.mp (mem_failures.mp hg)
    exact .core c herror
  · obtain ⟨r, hr, rfl⟩ := List.mem_map.mp hg
    rw [(draft_rejected h.packages).2] at hr
    obtain ⟨pkg, hpkg, herror⟩ := List.mem_map.mp (mem_failures.mp hr)
    exact .package pkg r hpkg herror rfl
  · obtain ⟨item, -, herror⟩ := List.mem_map.mp (mem_failures.mp hg)
    exact .module item herror
  · obtain ⟨d, hd, rfl⟩ := List.mem_map.mp hg
    exact .collision d (mem_sortOn.mp (List.mem_of_mem_filter hd)) rfl

theorem listed_ofClass (h : a.Distinct)
    (hd : d ∈ listed a (unrevised L now a).installableExtensions) : OfClass d.cls d.id := by
  rcases List.mem_append.mp hd with hd | hd
  · rcases List.mem_append.mp hd with hd | hd
    · obtain ⟨c, -, hok⟩ := List.mem_map.mp (mem_successes.mp hd)
      obtain ⟨-, -, -, hclass⟩ := coreDescriptor_ok hok
      have hcls : d.cls = .coreService := coreDescriptor_cls hok
      rwa [hcls]
    · obtain ⟨c, hc, rfl⟩ := List.mem_map.mp hd
      have hc := mem_sortOn.mp hc
      rw [draft_candidates, looked_eq h.packages] at hc
      obtain ⟨pkg, -, hoffer⟩ := List.mem_map.mp (mem_successes.mp hc)
      rw [offer_ok hoffer]
      exact extension_ofClass pkg.name
  · obtain ⟨item, -, hok⟩ := List.mem_map.mp (mem_successes.mp hd)
    rw [moduleDescriptor_ok hok, moduleDescriptor_cls hok]
    exact foundation_ofClass item.name

theorem GapOrigin.ofClass (h : a.Distinct) (hg : GapOrigin L now a g) :
    OfClass g.cls g.id := by
  cases hg with
  | core c herror =>
      obtain ⟨hcls, hclass, -⟩ := coreDescriptor_error herror
      rwa [hcls]
  | package pkg r _ herror heq =>
      rw [heq, packageGap, (offer_error herror).2.1]
      exact extension_ofClass pkg.name
  | module item herror =>
      rw [moduleDescriptor_error herror]
      exact foundation_ofClass item.name
  | collision d hd heq =>
      rw [heq]
      exact listed_ofClass h hd

theorem GapOrigin.distinct (h : a.Distinct) {g' : CoverageGap} (hg : GapOrigin L now a g)
    (hg' : GapOrigin L now a g') (hid : g.id = g'.id) (hcode : g.code = g'.code) : g = g' := by
  have hcls : g.cls = g'.cls := (hg.ofClass h).eq (hid ▸ hg'.ofClass h)
  have hmessage : g.message = g'.message := by
    cases hg with
    | core c herror =>
        obtain ⟨hcore, -, hdup, hmsg⟩ := coreDescriptor_error herror
        cases hg' with
        | core c' herror' =>
            obtain ⟨-, -, -, hmsg'⟩ := coreDescriptor_error herror'
            rw [hmsg, hmsg', hcode]
        | package pkg r _ _ heq =>
            rw [hcore, heq] at hcls
            cases hcls
        | module item herror' =>
            rw [hcore, moduleDescriptor_error herror'] at hcls
            cases hcls
        | collision d _ heq => exact absurd (hcode.trans (by rw [heq]; rfl)) hdup
    | package pkg r hpkg herror heq =>
        obtain ⟨-, hrid, hdup⟩ := offer_error herror
        cases hg' with
        | core c herror' =>
            rw [heq, (coreDescriptor_error herror').1] at hcls
            cases hcls
        | package pkg' r' hpkg' herror' heq' =>
            obtain ⟨-, hrid', -⟩ := offer_error herror'
            rw [heq, heq'] at hid
            have hname : pkg.name = pkg'.name :=
              String.append_right_inj _ |>.mp (hrid.symm.trans (hid.trans hrid'))
            rw [h.package hpkg hpkg' hname] at herror
            rw [heq, heq', Except.error.inj (herror.symm.trans herror')]
        | module item herror' =>
            rw [heq, moduleDescriptor_error herror'] at hcls
            cases hcls
        | collision d _ heq' =>
            rw [heq, heq'] at hcode
            exact absurd hcode hdup
    | module item herror =>
        rw [moduleDescriptor_error herror] at hcls hcode ⊢
        cases hg' with
        | core c herror' =>
            rw [(coreDescriptor_error herror').1] at hcls
            cases hcls
        | package pkg r _ _ heq =>
            rw [heq] at hcls
            cases hcls
        | module item' herror' => rw [moduleDescriptor_error herror']
        | collision d _ heq =>
            rw [heq] at hcode
            exact absurd hcode (by simp [Catalog.collision])
    | collision d _ heq =>
        cases hg' with
        | core c herror' =>
            exact absurd (hcode.symm.trans (by rw [heq]; rfl)) (coreDescriptor_error herror').2.2.1
        | package pkg r _ herror' heq' =>
            rw [heq, heq'] at hcode
            exact absurd hcode.symm (offer_error herror').2.2
        | module item herror' =>
            rw [heq, moduleDescriptor_error herror'] at hcode
            exact absurd hcode (by simp [Catalog.collision])
        | collision d' _ heq' => rw [heq, heq']; rfl
  cases g
  cases g'
  simp_all

def inventoryOf (expected : Class → Int) (ds : List Descriptor) (gs : List CoverageGap) : Inventory :=
  let unique := ds.filter fun d => !decide (1 < ds.countP (·.id = d.id))
  let rejectedOf (c : Class) : Int := gs.countP (·.cls = c)
  let publishedOf (c : Class) : Int := unique.countP (·.cls = c)
  { descriptors := unique
    coverage := {
      expected := expected .coreService + expected .extension + expected .installableModule
      published := unique.length
      rejected := rejectedOf .coreService + rejectedOf .extension + rejectedOf .installableModule
      missing := sortOn CoverageGap.key gs
      byClass := fun c => ⟨expected c, publishedOf c, rejectedOf c, expected c - publishedOf c⟩ } }

def Input.expected (input : Input) : Class → Int
  | .coreService => input.components.length
  | .extension => input.packages.length
  | .installableModule => input.descriptors.length

theorem buildInventory_eq (candidates : List ExtensionCandidate) (rejections : List Rejected) :
    (buildInventory a candidates rejections).1 =
      inventoryOf a.expected (sorted a candidates) (gaps a candidates rejections) := rfl

theorem buildInventory_reports (candidates : List ExtensionCandidate) (rejections : List Rejected) :
    (buildInventory a candidates rejections).2 =
      (failures (coreResults a) ++ failures (moduleResults a) ++
        collisions (sorted a candidates)).map CoverageGap.rejected := rfl

/-! ## Ids are distinct -/

/-- Results have names of their own where what they come from has. -/
theorem successes_nodup {β κ ε : Type} {f : α → Except ε β} {key : α → κ} {name : β → String}
    {xs : List α} (h : (xs.map key).Nodup)
    (hname : ∀ x ∈ xs, ∀ y ∈ xs, ∀ b c, f x = .ok b → f y = .ok c → name b = name c → key x = key y) :
    ((successes (xs.map f)).map name).Nodup := by
  induction xs with
  | nil => exact List.nodup_nil
  | cons x xs ih =>
      rw [List.map_cons, List.nodup_cons] at h
      have hrest := ih h.2 fun y hy z hz => hname y (List.mem_cons_of_mem _ hy) z (List.mem_cons_of_mem _ hz)
      rw [List.map_cons]
      cases hx : f x with
      | error e => exact hrest
      | ok b =>
          refine List.nodup_cons.mpr ⟨fun hmem => ?_, hrest⟩
          obtain ⟨c, hc, heq⟩ := List.mem_map.mp hmem
          obtain ⟨y, hy, hok⟩ := List.mem_map.mp (mem_successes.mp hc)
          have hkey := hname x (List.mem_cons_self ..) y (List.mem_cons_of_mem _ hy) b c hx hok heq.symm
          exact h.1 (hkey ▸ List.mem_map_of_mem hy)

theorem candidates_nodup (h : a.Distinct) :
    ((unrevised L now a).installableExtensions.map fun c => (candidateDescriptor c).id).Nodup := by
  have hperm : ((unrevised L now a).installableExtensions.map fun c => (candidateDescriptor c).id).Perm
      ((successes (a.packages.map (offer L now a))).map fun c => (candidateDescriptor c).id) := by
    refine List.Perm.map _ ?_
    have hcandidates : (draft L now a).candidates = successes (a.packages.map (offer L now a)) := by
      rw [draft_candidates, looked_eq h.packages]
      rfl
    exact hcandidates ▸ sortOn_perm _ _
  rw [hperm.nodup_iff]
  refine successes_nodup h.packages fun p _ q _ c c' hc hc' heq => ?_
  rw [offer_ok hc, offer_ok hc'] at heq
  exact String.append_right_inj _ |>.mp heq

theorem listed_nodup (h : a.Distinct) :
    ((listed a (unrevised L now a).installableExtensions).map Descriptor.id).Nodup := by
  have hcore : ((successes (coreResults a)).map Descriptor.id).Nodup := by
    refine successes_nodup h.components fun c _ c' _ d d' hd hd' heq => ?_
    obtain ⟨m, hm, hid, -⟩ := coreDescriptor_ok hd
    obtain ⟨m', hm', hid', -⟩ := coreDescriptor_ok hd'
    exact metadata_injective hm hm' (by rw [← hid, ← hid', heq])
  have hmodules : ((successes (moduleResults a)).map Descriptor.id).Nodup := by
    refine successes_nodup h.descriptors fun p _ q _ d d' hd hd' heq => ?_
    rw [moduleDescriptor_ok hd, moduleDescriptor_ok hd'] at heq
    exact String.append_right_inj _ |>.mp heq
  have hcandidates : (((unrevised L now a).installableExtensions.map candidateDescriptor).map
      Descriptor.id).Nodup := by
    rw [List.map_map]
    exact candidates_nodup h
  -- the classes separate the three parts
  have hcoreClass : ∀ id ∈ (successes (coreResults a)).map Descriptor.id, OfClass .coreService id := by
    intro id hid
    obtain ⟨d, hd, rfl⟩ := List.mem_map.mp hid
    obtain ⟨c, -, hok⟩ := List.mem_map.mp (mem_successes.mp hd)
    obtain ⟨-, -, -, hclass⟩ := coreDescriptor_ok hok
    exact hclass
  have hcandidateClass : ∀ id ∈ ((unrevised L now a).installableExtensions.map candidateDescriptor).map
      Descriptor.id, OfClass .extension id := by
    intro id hid
    obtain ⟨d, hd, rfl⟩ := List.mem_map.mp hid
    have hmem : d ∈ listed a (unrevised L now a).installableExtensions :=
      List.mem_append_left _ (List.mem_append_right _ hd)
    obtain ⟨c, -, rfl⟩ := List.mem_map.mp hd
    exact listed_ofClass h hmem
  have hmoduleClass : ∀ id ∈ (successes (moduleResults a)).map Descriptor.id,
      OfClass .installableModule id := by
    intro id hid
    obtain ⟨d, hd, rfl⟩ := List.mem_map.mp hid
    obtain ⟨item, -, hok⟩ := List.mem_map.mp (mem_successes.mp hd)
    rw [moduleDescriptor_ok hok]
    exact foundation_ofClass item.name
  rw [listed, List.map_append, List.map_append, List.nodup_append, List.nodup_append]
  refine ⟨⟨hcore, hcandidates, ?_⟩, hmodules, ?_⟩
  · rintro x hx y hy rfl
    cases (hcoreClass x hx).eq (hcandidateClass x hy)
  · rintro x hx y hy rfl
    rcases List.mem_append.mp hx with hx | hx
    · cases (hcoreClass x hx).eq (hmoduleClass x hy)
    · cases (hcandidateClass x hx).eq (hmoduleClass x hy)

/-- No two descriptors have the same id. -/
theorem sorted_unique (h : a.Distinct) :
    ¬ 1 < (sorted a (unrevised L now a).installableExtensions).countP (·.id = d.id) := by
  have hnodup : ((sorted a (unrevised L now a).installableExtensions).map Descriptor.id).Nodup :=
    ((sortOn_perm _ _).map _).nodup_iff.mpr (listed_nodup h)
  have hcount := List.nodup_iff_count_le_one.mp hnodup d.id
  rw [List.count_eq_countP, List.countP_map] at hcount
  refine Nat.not_lt.mpr (le_trans (Nat.le_of_eq ?_) hcount)
  refine List.countP_congr fun x _ => ?_
  simp

theorem collisions_nil (h : a.Distinct) :
    collisions (sorted a (unrevised L now a).installableExtensions) = [] := by
  rw [collisions, List.map_eq_nil_iff, List.filter_eq_nil_iff]
  intro d _
  simpa using sorted_unique h

theorem published_eq (h : a.Distinct) :
    (unrevised L now a).inventory.descriptors = sorted a (unrevised L now a).installableExtensions := by
  show List.filter _ (sorted a (unrevised L now a).installableExtensions) = _
  rw [List.filter_eq_self]
  intro d _
  have hunique : ¬ 1 < (sorted a (unrevised L now a).installableExtensions).countP (·.id = d.id) :=
    sorted_unique h
  show (!decide (1 < (sorted a (unrevised L now a).installableExtensions).countP (·.id = d.id))) = true
  rw [Bool.not_eq_true', decide_eq_false_iff_not]
  exact hunique

theorem length_results {ε : Type} (xs : List (Except ε α)) :
    (failures xs).length + (successes xs).length = xs.length := by
  induction xs with
  | nil => rfl
  | cons x xs ih =>
      cases x <;> simp only [failures, successes, List.length_cons] <;> omega

theorem length_listed (h : a.Distinct) :
    (listed a (unrevised L now a).installableExtensions).length + (sourceGaps L now a).length =
      a.components.length + a.packages.length + a.descriptors.length := by
  have hcore := length_results (coreResults a)
  have hmodules := length_results (moduleResults a)
  have hoffers := length_results (a.packages.map (offer L now a))
  have hcandidates : (unrevised L now a).installableExtensions.length =
      (successes (a.packages.map (offer L now a))).length := by
    show (sortOn _ (draft L now a).candidates).length = _
    rw [(sortOn_perm _ _).length_eq, draft_candidates, looked_eq h.packages]
    rfl
  have hrejections : (draft L now a).candidateRejections.length =
      (failures (a.packages.map (offer L now a))).length := by
    rw [(draft_rejected h.packages).2]
    rfl
  rw [coreResults, List.length_map] at hcore
  rw [moduleResults, List.length_map] at hmodules
  rw [List.length_map] at hoffers
  simp only [listed, sourceGaps, gaps, collisions_nil h, List.length_append, List.length_map,
    List.length_nil, hcandidates, hrejections, coreResults, moduleResults]
  omega

theorem countP_classes (gs : List CoverageGap) :
    gs.countP (·.cls = .coreService) + gs.countP (·.cls = .extension) +
      gs.countP (·.cls = .installableModule) = gs.length := by
  induction gs with
  | nil => rfl
  | cons g gs ih =>
      rw [List.countP_cons, List.countP_cons, List.countP_cons, List.length_cons]
      cases g.cls <;> simp <;> omega

end

end Catalog
