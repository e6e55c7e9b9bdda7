import OpenSphere.Catalog.Origins
import OpenSphere.Properties.Trust

/-!
# Coverage of the inventory

A snapshot accounts for what it is made of.  `Item` is a component of the release, an entry of the
list of packages or a descriptor of a Foundation module, and each one gets one account: the
descriptor that is published for it, or the gap that says why there is none.

The accounts are made in two passes, as the inventory is.  The first gives each item what its own
checks give it (`accounts`), and the second turns every descriptor whose id occurs twice into a gap
(`settled`).
-/

namespace Catalog

/-! ## Items and their accounts -/

inductive Item where
  | component (c : String × ReleaseComponent)
  | package (pkg : Resource)
  | foundation (item : Resource)

def Item.cls : Item → Class
  | .component _ => .coreService
  | .package _ => .extension
  | .foundation _ => .installableModule

def Item.name : Item → String
  | .component c => c.1
  | .package pkg => pkg.name
  | .foundation item => item.name

def Item.id : Item → String
  | .component c => (coreServices.lookup c.1).elim ("core." ++ c.1) CoreServiceMetadata.id
  | .package pkg => "extension." ++ pkg.name
  | .foundation item => "foundation." ++ item.name

def Input.items (a : Input) : List Item :=
  a.components.map .component ++ a.packages.map .package ++ a.descriptors.map .foundation

def Item.Account (item : Item) : Except CoverageGap Descriptor → Prop
  | .ok d => d.cls = item.cls ∧ d.id = item.id ∧ d.sourceName = item.name
  | .error g => g.cls = item.cls ∧ g.id = item.id

/-- The inventory accounts for the items, each of them once, and counts them right. -/
structure Inventory.Conserves (i : Inventory) (items : List Item) : Prop where
  /-- Every item has one account, and the accounts are what is published and what is missing. -/
  accounts : ∃ results : List (Except CoverageGap Descriptor),
    List.Forall₂ Item.Account items results ∧ (successes results).Perm i.descriptors ∧
      (failures results).Perm i.coverage.missing
  unique : (i.descriptors.map Descriptor.id).Nodup
  expectedOf : ∀ c, (i.coverage.byClass c).expected = items.countP (·.cls = c)
  publishedOf : ∀ c, (i.coverage.byClass c).published = i.descriptors.countP (·.cls = c)
  missingOf : ∀ c, (i.coverage.byClass c).missing = i.coverage.missing.countP (·.cls = c)
  partition : ∀ c, (i.coverage.byClass c).expected =
    (i.coverage.byClass c).published + (i.coverage.byClass c).missing
  rejectedOf : ∀ c, (i.coverage.byClass c).rejected = (i.coverage.byClass c).missing
  expected : i.coverage.expected = items.length
  published : i.coverage.published = i.descriptors.length
  missing : (i.coverage.missing.length : Int) = i.coverage.expected - i.coverage.published

/-! ## The first pass -/

/-- What the loop over the packages makes of each of them, after some names. -/
def offers (L : Library) (now : String → Int) (a : Input) :
    List String → List Resource → List (Except Rejected ExtensionCandidate)
  | _, [] => []
  | seen, pkg :: pkgs =>
      if seen.contains pkg.name then
        .error (.extension ("extension." ++ pkg.name) "DuplicateID" "duplicate extension id") ::
          offers L now a seen pkgs
      else offer L now a pkg :: offers L now a (pkg.name :: seen) pkgs

def packageAccount : Except Rejected ExtensionCandidate → Except CoverageGap Descriptor
  | .ok c => .ok (candidateDescriptor c)
  | .error r => .error (packageGap r)

def accounts (L : Library) (now : String → Int) (a : Input) : List (Except CoverageGap Descriptor) :=
  coreResults a ++ (offers L now a [] a.packages).map packageAccount ++ moduleResults a

section

variable {L : Library} {now : String → Int} {a : Input}

theorem foldl_offers : ∀ (pkgs : List Resource) (d : Draft),
    (pkgs.foldl (Draft.visit L now a) d).candidates =
        d.candidates ++ successes (offers L now a d.seen pkgs) ∧
      (pkgs.foldl (Draft.visit L now a) d).candidateRejections =
        d.candidateRejections ++ failures (offers L now a d.seen pkgs)
  | [], d => ⟨(List.append_nil _).symm, (List.append_nil _).symm⟩
  | pkg :: pkgs, d => by
      obtain ⟨hcandidates, hrejections⟩ := foldl_offers pkgs (Draft.visit L now a d pkg)
      rw [List.foldl_cons, hcandidates, hrejections, Draft.visit, offers]
      split
      · exact ⟨rfl, by rw [failures, List.append_assoc]; rfl⟩
      · rw [successes_cons _ (offers ..), failures_cons _ (offers ..)]
        exact ⟨List.append_assoc .., List.append_assoc ..⟩

theorem draft_offers :
    (draft L now a).candidates = successes (offers L now a [] a.packages) ∧
      (draft L now a).candidateRejections = failures (offers L now a [] a.packages) :=
  foldl_offers _ _

theorem successes_packageAccount (xs : List (Except Rejected ExtensionCandidate)) :
    successes (xs.map packageAccount) = (successes xs).map candidateDescriptor := by
  induction xs with
  | nil => rfl
  | cons x xs ih => cases x <;> simp [packageAccount, successes, ih]

theorem failures_packageAccount (xs : List (Except Rejected ExtensionCandidate)) :
    failures (xs.map packageAccount) = (failures xs).map packageGap := by
  induction xs with
  | nil => rfl
  | cons x xs ih => cases x <;> simp [packageAccount, failures, ih]

theorem successes_append {ε α : Type} (xs ys : List (Except ε α)) :
    successes (xs ++ ys) = successes xs ++ successes ys := by
  induction xs with
  | nil => rfl
  | cons x xs ih => cases x <;> simp [successes, ih]

theorem failures_append {ε α : Type} (xs ys : List (Except ε α)) :
    failures (xs ++ ys) = failures xs ++ failures ys := by
  induction xs with
  | nil => rfl
  | cons x xs ih => cases x <;> simp [failures, ih]

/-! ### Every item has an account -/

theorem coreDescriptor_account (c : String × ReleaseComponent) :
    (Item.component c).Account (coreDescriptor a c) := by
  unfold coreDescriptor
  cases hm : coreServices.lookup c.1 with
  | none => exact ⟨rfl, by simp only [Item.id, hm, Option.elim]⟩
  | some m =>
      dsimp only
      split
      · exact ⟨rfl, by simp only [Item.id, hm, Option.elim]⟩
      · exact ⟨rfl, by simp only [Item.id, hm, Option.elim], rfl⟩

theorem moduleDescriptor_account (item : Resource) :
    (Item.foundation item).Account (moduleDescriptor item) := by
  unfold moduleDescriptor
  dsimp only
  split
  · exact ⟨rfl, rfl⟩
  · exact ⟨rfl, rfl, rfl⟩

theorem offer_account (pkg : Resource) :
    (Item.package pkg).Account (packageAccount (offer L now a pkg)) := by
  cases h : offer L now a pkg with
  | error r =>
      obtain ⟨-, hid, -⟩ := offer_error h
      exact ⟨rfl, hid⟩
  | ok c =>
      rw [offer_ok h]
      exact ⟨rfl, rfl, rfl⟩

theorem offers_account : ∀ (seen : List String) (pkgs : List Resource),
    List.Forall₂ Item.Account (pkgs.map .package) ((offers L now a seen pkgs).map packageAccount)
  | _, [] => .nil
  | seen, pkg :: pkgs => by
      rw [offers]
      split
      · exact .cons ⟨rfl, rfl⟩ (offers_account seen pkgs)
      · exact .cons (offer_account pkg) (offers_account _ pkgs)

theorem accounts_account : List.Forall₂ Item.Account a.items (accounts L now a) := by
  refine List.rel_append (List.rel_append ?_ (offers_account _ _)) ?_
  · rw [List.forall₂_map_left_iff, coreResults, List.forall₂_map_right_iff, List.forall₂_same]
    exact fun c _ => coreDescriptor_account c
  · rw [List.forall₂_map_left_iff, moduleResults, List.forall₂_map_right_iff, List.forall₂_same]
    exact fun item _ => moduleDescriptor_account item

end

/-! ## The second pass -/

/-- The id of a descriptor occurs more than once. -/
def repeated (ds : List Descriptor) (d : Descriptor) : Bool := decide (1 < ds.countP (·.id = d.id))

/-- An account after the ids are compared. -/
def settle (ds : List Descriptor) : Except CoverageGap Descriptor → Except CoverageGap Descriptor
  | .ok d => if repeated ds d then .error (collision d) else .ok d
  | .error g => .error g

/-- The accounts after the ids are compared. -/
def settled (L : Library) (now : String → Int) (a : Input) : List (Except CoverageGap Descriptor) :=
  (accounts L now a).map (settle (sorted a (unrevised L now a).installableExtensions))

theorem successes_settle (ds : List Descriptor) (xs : List (Except CoverageGap Descriptor)) :
    successes (xs.map (settle ds)) = (successes xs).filter fun d => !repeated ds d := by
  induction xs with
  | nil => rfl
  | cons x xs ih =>
      cases x with
      | error g => exact ih
      | ok d =>
          rw [List.map_cons, settle, successes, List.filter_cons]
          cases repeated ds d
          · exact congrArg _ ih
          · exact ih

theorem failures_settle (ds : List Descriptor) (xs : List (Except CoverageGap Descriptor)) :
    (failures (xs.map (settle ds))).Perm
      (failures xs ++ ((successes xs).filter (repeated ds)).map collision) := by
  induction xs with
  | nil => exact .nil
  | cons x xs ih =>
      cases x with
      | error g => exact ih.cons g
      | ok d =>
          rw [List.map_cons, settle, successes, List.filter_cons]
          cases repeated ds d
          · exact ih
          · exact (ih.cons _).trans List.perm_middle.symm

theorem settle_account {ds : List Descriptor} {item : Item} {x : Except CoverageGap Descriptor}
    (h : item.Account x) : item.Account (settle ds x) := by
  cases x with
  | error g => exact h
  | ok d =>
      rw [settle]
      split
      · exact ⟨h.1, h.2.1⟩
      · exact h

section

variable {L : Library} {now : String → Int} {a : Input}

theorem settled_account : List.Forall₂ Item.Account a.items (settled L now a) := by
  rw [settled, List.forall₂_map_right_iff]
  exact accounts_account.imp fun _ _ h => settle_account h

/-- The descriptors of the first pass, before and after they are sorted. -/
theorem sorted_accounts :
    (sorted a (unrevised L now a).installableExtensions).Perm (successes (accounts L now a)) := by
  refine (sortOn_perm _ _).trans ?_
  rw [accounts, successes_append, successes_append, successes_packageAccount, ← draft_offers.1, listed]
  refine List.Perm.append_right _ (List.Perm.append_left _ (List.Perm.map _ ?_))
  exact sortOn_perm _ _

theorem settled_published :
    (successes (settled L now a)).Perm (unrevised L now a).inventory.descriptors := by
  rw [settled, successes_settle]
  exact (sorted_accounts.symm.filter _)

theorem settled_missing :
    (failures (settled L now a)).Perm (unrevised L now a).inventory.coverage.missing := by
  have hmissing : (unrevised L now a).inventory.coverage.missing = sortOn CoverageGap.key
      (gaps a (unrevised L now a).installableExtensions (draft L now a).candidateRejections) := rfl
  have hfirst : failures (accounts L now a) = failures (coreResults a) ++
      (draft L now a).candidateRejections.map packageGap ++ failures (moduleResults a) := by
    rw [accounts, failures_append, failures_append, failures_packageAccount, ← draft_offers.2]
  rw [settled, hmissing]
  refine (failures_settle _ _).trans (List.Perm.trans ?_ (sortOn_perm _ _).symm)
  rw [gaps, hfirst]
  refine List.Perm.append_left _ (List.Perm.map _ ?_)
  exact sorted_accounts.symm.filter _

/-! ## Counts -/

theorem countP_accounts {items : List Item} {results : List (Except CoverageGap Descriptor)}
    (h : List.Forall₂ Item.Account items results) (c : Class) :
    items.countP (·.cls = c) =
      (successes results).countP (·.cls = c) + (failures results).countP (·.cls = c) := by
  induction h with
  | nil => rfl
  | @cons item result items results hitem _ ih =>
      cases result with
      | ok d | error g =>
          simp only [List.countP_cons, successes, failures, hitem.1, ih]
          omega

theorem expected_eq (c : Class) : a.expected c = a.items.countP (·.cls = c) := by
  rw [Input.items, List.countP_append, List.countP_append, List.countP_map, List.countP_map,
    List.countP_map]
  cases c <;> simp [Input.expected, Function.comp_def, Item.cls]

theorem published_nodup (ds : List Descriptor) :
    ((ds.filter fun d => !repeated ds d).map Descriptor.id).Nodup := by
  rw [List.nodup_iff_count_le_one]
  intro id
  by_cases hid : id ∈ (ds.filter fun d => !repeated ds d).map Descriptor.id
  · obtain ⟨d, hd, rfl⟩ := List.mem_map.mp hid
    have hfew : ¬ 1 < ds.countP (·.id = d.id) := by
      simpa [repeated] using (List.mem_filter.mp hd).2
    rw [List.count_eq_countP, List.countP_map]
    refine le_trans (List.Sublist.countP_le List.filter_sublist) (le_trans (Nat.le_of_eq ?_) (Nat.not_lt.mp hfew))
    exact List.countP_congr fun x _ => by simp
  · rw [List.count_eq_zero_of_not_mem hid]
    exact Nat.zero_le 1

theorem countP_items (items : List Item) :
    items.countP (·.cls = .coreService) + items.countP (·.cls = .extension) +
      items.countP (·.cls = .installableModule) = items.length := by
  induction items with
  | nil => rfl
  | cons item items ih =>
      rw [List.countP_cons, List.countP_cons, List.countP_cons, List.length_cons]
      cases item.cls <;> simp <;> omega

theorem missing_eq (c : Class) :
    ((unrevised L now a).inventory.coverage.byClass c).missing =
      (unrevised L now a).inventory.coverage.missing.countP (·.cls = c) := by
  have hpublished := (@settled_published L now a).countP_eq (·.cls = c)
  have hmissing := (@settled_missing L now a).countP_eq (·.cls = c)
  have hcount := countP_accounts (@settled_account L now a) c
  show a.expected c - ((unrevised L now a).inventory.descriptors.countP (·.cls = c) : Int) = _
  rw [expected_eq, hcount, hpublished, hmissing]
  omega

theorem rejected_eq (c : Class) :
    ((unrevised L now a).inventory.coverage.byClass c).rejected =
      (unrevised L now a).inventory.coverage.missing.countP (·.cls = c) := by
  have hperm : ((unrevised L now a).inventory.coverage.missing).Perm
      (gaps a (unrevised L now a).installableExtensions (draft L now a).candidateRejections) :=
    sortOn_perm _ _
  rw [hperm.countP_eq]
  rfl

theorem unrevised_conserves (L : Library) (now : String → Int) (a : Input) :
    (unrevised L now a).inventory.Conserves a.items where
  accounts := ⟨settled L now a, settled_account, settled_published, settled_missing⟩
  unique := published_nodup (sorted a (unrevised L now a).installableExtensions)
  expectedOf := expected_eq
  publishedOf _ := rfl
  missingOf := missing_eq
  partition c :=
    (add_sub_cancel ((unrevised L now a).inventory.coverage.byClass c).published (a.expected c)).symm
  rejectedOf c := by rw [rejected_eq, missing_eq]
  expected := by
    show a.expected .coreService + a.expected .extension + a.expected .installableModule = _
    rw [expected_eq, expected_eq, expected_eq, ← countP_items a.items]
    norm_cast
  published := rfl
  missing := by
    have hitems := (@settled_account L now a).length_eq
    have hresults := length_results (settled L now a)
    have hpublished := (@settled_published L now a).length_eq
    have hmissing := (@settled_missing L now a).length_eq
    show _ = a.expected .coreService + a.expected .extension + a.expected .installableModule -
      ((unrevised L now a).inventory.descriptors.length : Int)
    rw [expected_eq, expected_eq, expected_eq]
    have hclasses := countP_items a.items
    omega

end

/-- **Coverage is conserved.**  Every snapshot accounts for each component of the release, each
entry of the list of packages and each descriptor of a Foundation module exactly once, whatever ids
occur twice, and its counts are those of the accounts. -/
theorem coverage_conserved {L : Library} {now : String → Int} {a : Input} {r : Response}
    (h : build L now a = .ok r) : r.inventory.Conserves a.items := by
  unfold build at h
  split at h
  · cases h
  · obtain rfl := Except.ok.inj h
    exact unrevised_conserves L now a

theorem coverage_conserved_twice : ∃ r,
    build Demo.library (fun _ => 0) { Demo.sources (Demo.package "") (Demo.registration "") "key-1" with
      packages := [Demo.package "", Demo.package ""] } = .ok r ∧
    r.inventory.Conserves (Input.items
      { Demo.sources (Demo.package "") (Demo.registration "") "key-1" with
        packages := [Demo.package "", Demo.package ""] }) :=
  ⟨_, rfl, coverage_conserved rfl⟩

end Catalog
