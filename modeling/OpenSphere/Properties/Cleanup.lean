import Mathlib.Data.Finset.Dedup
import Mathlib.Data.Finset.Card
import Mathlib.Data.List.Forall2
import Mathlib.Data.List.Dedup
import OpenSphere.Extension.Cleanup
import OpenSphere.Sql.Table

/-!
# What a cleanup deletes

The two loops of the plan go through the resources of all collections in turn.  `Scan.item_ok`
says what one resource adds to what was seen, or that it makes the plan fail, and
`foldlM_item` what all of them do.  Nothing of it depends on their order but the list of
candidates, which is sorted at the end.
-/

open Sql
open Js (Value Collation)
open Catalog (Hash)

namespace Extension

variable {h : Hash} {p : Plan} {q : Request} {collation : Collation}
variable {c : Candidate} {t : String} {l m : List Inventory} {cs : List Candidate} {a b : Inventory}
  {s s' : Scan} {i : Item}

/-! ## One resource -/

structure Item where
  collection : Collection
  resource : Value

def Item.Claims (p : Plan) (i : Item) : Prop := claimsTarget p i.collection i.resource = true

instance (i : Item) : Decidable (i.Claims p) := inferInstanceAs (Decidable (_ = true))

/-- The resource is one of the API server, and as the controller made it. -/
def Item.WellFormed (h : Hash) (p : Plan) (i : Item) : Prop :=
  authoritative p i.collection i.resource = true ∧
    ∃ e, evidenceOf i.resource = .ok e ∧ proper h p i.collection i.resource e = true

/-- The resource does not make the plan fail by itself. -/
def Item.Good (h : Hash) (p : Plan) (i : Item) : Prop :=
  authoritative p i.collection i.resource = true ∧ (i.Claims p → i.WellFormed h p)

def Item.coordinate? (p : Plan) (i : Item) : Option String :=
  if i.Claims p then some (coordinate i.collection i.resource) else none

def Item.candidate? (p : Plan) (q : Request) (i : Item) : Option Candidate :=
  if i.Claims p then
    match evidenceOf i.resource with
    | .ok e =>
        if inactive p q i.collection i.resource e then
          some (candidateOf i.collection i.resource e)
        else none
    | .error _ => none
  else none

def Candidate.revision (c : Candidate) : String := c.evidence.revision

/-- What was seen after some resources, if none of them makes the plan fail. -/
def Scan.after (p : Plan) (q : Request) (s : Scan) (l : List Item) : Scan where
  collections := s.collections
  resources := s.resources ++ l.filterMap (Item.coordinate? p)
  candidates := s.candidates ++ l.filterMap (Item.candidate? p q)
  revisions := ((l.filterMap (Item.candidate? p q)).map Candidate.revision).foldl add s.revisions
  observed := s.observed + l.length

structure Scan.Within (q : Request) (s : Scan) : Prop where
  observed : s.observed ≤ 2048
  revisions : s.revisions.length ≤ 2
  candidates : (s.candidates.length : Int) ≤ q.maximumDeletes
  distinct : s.resources.Nodup

theorem length_add (xs : List String) (x : String) : xs.length ≤ (add xs x).length := by
  unfold add
  split
  · exact Nat.le_refl _
  · simp

theorem length_foldl_add (ys xs : List String) : xs.length ≤ (ys.foldl add xs).length := by
  induction ys generalizing xs with
  | nil => exact Nat.le_refl _
  | cons y ys ih => exact Nat.le_trans (length_add xs y) (ih _)

theorem Scan.after_nil (s : Scan) : s.after p q [] = s := by
  simp [Scan.after]

theorem Scan.after_append (s : Scan) (l m : List Item) :
    s.after p q (l ++ m) = (s.after p q l).after p q m := by
  simp [Scan.after, List.append_assoc, Nat.add_assoc]

theorem Scan.Within.of_after {l : List Item} (hw : (s.after p q l).Within q) :
    s.Within q := by
  obtain ⟨hobserved, hrevisions, hcandidates, hdistinct⟩ := hw
  simp only [Scan.after, List.length_append] at hobserved hrevisions hcandidates hdistinct
  have hlength := length_foldl_add
    ((l.filterMap (Item.candidate? p q)).map Candidate.revision) s.revisions
  exact ⟨by omega, by omega, by omega, (List.nodup_append.mp hdistinct).1⟩

section

variable {s s' : Scan} {i : Item} {e : Evidence}

theorem Scan.after_passed (hclaims : ¬ i.Claims p) :
    s.after p q [i] = { s with observed := s.observed + 1 } := by
  simp [Scan.after, Item.coordinate?, Item.candidate?, hclaims]

theorem Scan.after_kept (hclaims : i.Claims p) (he : evidenceOf i.resource = .ok e)
    (hkept : inactive p q i.collection i.resource e = false) :
    s.after p q [i] = { s with
      resources := s.resources ++ [coordinate i.collection i.resource]
      observed := s.observed + 1 } := by
  simp [Scan.after, Item.coordinate?, Item.candidate?, hclaims, he, hkept]

theorem Scan.after_taken (hclaims : i.Claims p) (he : evidenceOf i.resource = .ok e)
    (htaken : inactive p q i.collection i.resource e = true) :
    s.after p q [i] = { s with
      resources := s.resources ++ [coordinate i.collection i.resource]
      candidates := s.candidates ++ [candidateOf i.collection i.resource e]
      revisions := add s.revisions e.revision
      observed := s.observed + 1 } := by
  simp [Scan.after, Item.coordinate?, Item.candidate?, hclaims, he, htaken, Candidate.revision,
    candidateOf]

theorem Scan.take_ok (hs : s.Within q) (hobserved : s.observed + 1 ≤ 2048)
    (hclaims : i.Claims p) (he : evidenceOf i.resource = .ok e)
    (hnew : coordinate i.collection i.resource ∉ s.resources) :
    Scan.take p q i.collection { s with observed := s.observed + 1 } i.resource e = .ok s' ↔
      s' = s.after p q [i] ∧ s'.Within q := by
  have hdistinct : (s.resources ++ [coordinate i.collection i.resource]).Nodup :=
    List.nodup_append.mpr ⟨hs.distinct, List.nodup_singleton _, by
      rintro a ha b hb rfl
      exact hnew (List.mem_singleton.mp hb ▸ ha)⟩
  cases hinactive : inactive p q i.collection i.resource e with
  | false =>
      rw [Scan.after_kept hclaims he hinactive, Scan.take, hinactive]
      constructor
      · rintro ⟨⟩
        exact ⟨rfl, hobserved, hs.revisions, hs.candidates, hdistinct⟩
      · rintro ⟨rfl, -⟩
        rfl
  | true =>
      rw [Scan.after_taken hclaims he hinactive, Scan.take, hinactive, if_pos rfl]
      dsimp only
      split
      next hmany =>
        refine iff_of_false nofun ?_
        rintro ⟨rfl, hw⟩
        exact Nat.not_lt.mpr hw.revisions hmany
      next hfew =>
        split
        next hmany =>
          refine iff_of_false nofun ?_
          rintro ⟨rfl, hw⟩
          exact Int.not_lt.mpr hw.candidates hmany
        next hroom =>
          constructor
          · rintro ⟨⟩
            exact ⟨rfl, hobserved, Nat.not_lt.mp hfew, Int.not_lt.mp hroom, hdistinct⟩
          · rintro ⟨rfl, -⟩
            rfl

end

theorem Scan.claim_ok (hs : s.Within q) (hobserved : s.observed + 1 ≤ 2048)
    (hclaims : i.Claims p) (hauthoritative : authoritative p i.collection i.resource = true) :
    Scan.claim h p q i.collection { s with observed := s.observed + 1 } i.resource = .ok s' ↔
      i.WellFormed h p ∧ s' = s.after p q [i] ∧ s'.Within q := by
  unfold Scan.claim
  split
  next f hf =>
    refine iff_of_false nofun ?_
    rintro ⟨⟨-, e, he, -⟩, -⟩
    rw [hf] at he
    cases he
  next e he =>
    split
    next htaken =>
      have hwell : i.WellFormed h p := ⟨hauthoritative, e, he, htaken.1⟩
      rw [and_iff_right hwell]
      exact Scan.take_ok hs hobserved hclaims he htaken.2
    next hrefused =>
      refine iff_of_false nofun ?_
      rintro ⟨⟨-, e', he', hproper⟩, rfl, hw⟩
      rw [he] at he'
      cases he'
      have hdistinct := hw.distinct
      simp only [Scan.after, List.filterMap_cons, List.filterMap_nil, Item.coordinate?,
        if_pos hclaims, List.nodup_append] at hdistinct
      exact hrefused ⟨hproper, fun hseen => hdistinct.2.2 _ hseen _ (List.mem_singleton_self _) rfl⟩

theorem Scan.item_ok (hs : s.Within q) (i : Item) :
    s.item h p q i.collection i.resource = .ok s' ↔
      i.Good h p ∧ s' = s.after p q [i] ∧ s'.Within q := by
  unfold Scan.item
  dsimp only
  split
  next hmany =>
    refine iff_of_false nofun ?_
    rintro ⟨-, rfl, hw⟩
    exact Nat.not_lt.mpr hw.observed hmany
  next hfew =>
    have hobserved : s.observed + 1 ≤ 2048 := Nat.not_lt.mp hfew
    split
    next hauthoritative =>
      split
      next hclaims =>
        rw [Scan.claim_ok hs hobserved hclaims hauthoritative]
        refine and_congr_left fun _ => ⟨fun hwell => ⟨hauthoritative, fun _ => hwell⟩, fun hgood => ?_⟩
        exact hgood.2 hclaims
      next hpassed =>
        have hgood : i.Good h p := ⟨hauthoritative, fun hclaims => absurd hclaims hpassed⟩
        rw [Scan.after_passed hpassed, and_iff_right hgood]
        constructor
        · rintro ⟨⟩
          exact ⟨rfl, hobserved, hs.revisions, hs.candidates, hs.distinct⟩
        · rintro ⟨rfl, -⟩
          rfl
    next hmalformed => exact iff_of_false nofun fun hok => hmalformed hok.1.1

/-! ## All resources -/

theorem foldlM_item (hs : s.Within q) (c : Collection) (resources : List Value) :
    resources.foldlM (Scan.item h p q c) s = .ok s' ↔
      (∀ r ∈ resources, Item.Good h p ⟨c, r⟩) ∧ s' = s.after p q (resources.map (Item.mk c)) ∧
        s'.Within q := by
  induction resources generalizing s with
  | nil =>
      rw [List.map_nil, Scan.after_nil]
      constructor
      · rintro ⟨⟩
        exact ⟨nofun, rfl, hs⟩
      · rintro ⟨-, rfl, -⟩
        rfl
  | cons r resources ih =>
      rw [List.foldlM_cons, bind_eq_ok, List.forall_mem_cons, List.map_cons, ← List.singleton_append,
        Scan.after_append]
      constructor
      · rintro ⟨t, hitem, hrest⟩
        obtain ⟨hgood, rfl, hw⟩ := (Scan.item_ok hs ⟨c, r⟩).mp hitem
        obtain ⟨hothers, hafter, hw'⟩ := (ih hw).mp hrest
        exact ⟨⟨hgood, hothers⟩, hafter, hw'⟩
      · rintro ⟨⟨hgood, hothers⟩, rfl, hw'⟩
        have hw := hw'.of_after
        exact ⟨_, (Scan.item_ok hs ⟨c, r⟩).mpr ⟨hgood, rfl, hw⟩, (ih hw).mpr ⟨hothers, rfl, hw'⟩⟩

def Inventory.Admitted (p : Plan) (inventory : Inventory) : Prop :=
  ∃ c resources, p.allowed inventory.basePath = some c ∧ inventory.items = some resources ∧
    c.kind = inventory.kind

def Inventory.located (p : Plan) (inventory : Inventory) : List Item :=
  match p.allowed inventory.basePath, inventory.items with
  | some c, some resources => resources.map (Item.mk c)
  | _, _ => []

def located (p : Plan) (inventories : List Inventory) : List Item :=
  inventories.flatMap (Inventory.located p)

theorem Scan.inventory_ok (hs : s.Within q) (inventory : Inventory) :
    s.inventory h p q inventory = .ok s' ↔
      inventory.Admitted p ∧ inventory.basePath ∉ s.collections ∧
        (∀ i ∈ inventory.located p, i.Good h p) ∧
        s' = { s.after p q (inventory.located p) with
          collections := s.collections ++ [inventory.basePath] } ∧ s'.Within q := by
  unfold Scan.inventory
  split
  next c resources hallowed hitems =>
    split
    next hrefused =>
      refine iff_of_false nofun ?_
      rintro ⟨⟨c', _, hallowed', -, hkind⟩, hnew, -⟩
      rw [hallowed] at hallowed'
      cases hallowed'
      rcases hrefused with hseen | hother
      · exact hnew hseen
      · exact hother hkind
    next htaken =>
      obtain ⟨hnew, hkind⟩ := not_or.mp htaken
      have hadmitted : inventory.Admitted p :=
        ⟨c, resources, hallowed, hitems, not_not.mp hkind⟩
      have hs' : Scan.Within q { s with collections := s.collections ++ [inventory.basePath] } :=
        ⟨hs.observed, hs.revisions, hs.candidates, hs.distinct⟩
      have hlocated : inventory.located p = resources.map (Item.mk c) := by
        rw [Inventory.located, hallowed, hitems]
      rw [foldlM_item hs' c resources, and_iff_right hadmitted, and_iff_right hnew, hlocated,
        List.forall_mem_map]
      rfl
  next hnone =>
    refine iff_of_false nofun ?_
    rintro ⟨⟨c, resources, hallowed, hitems, -⟩, -⟩
    exact hnone c resources hallowed hitems

theorem foldlM_inventory (hs : s.Within q) (hdistinct : s.collections.Nodup)
    (inventories : List Inventory) :
    inventories.foldlM (Scan.inventory h p q) s = .ok s' ↔
      (∀ inventory ∈ inventories, inventory.Admitted p) ∧
        (s.collections ++ inventories.map Inventory.basePath).Nodup ∧
        (∀ i ∈ located p inventories, i.Good h p) ∧
        s' = { s.after p q (located p inventories) with
          collections := s.collections ++ inventories.map Inventory.basePath } ∧ s'.Within q := by
  induction inventories generalizing s with
  | nil =>
      have hnone : located p [] = [] := rfl
      rw [hnone, Scan.after_nil, List.map_nil, List.append_nil]
      constructor
      · rintro ⟨⟩
        exact ⟨nofun, hdistinct, nofun, rfl, hs⟩
      · rintro ⟨-, -, -, rfl, -⟩
        rfl
  | cons inventory inventories ih =>
      have hlocated : located p (inventory :: inventories) =
          inventory.located p ++ located p inventories := rfl
      have hpaths : s.collections ++ (inventory :: inventories).map Inventory.basePath =
          s.collections ++ [inventory.basePath] ++ inventories.map Inventory.basePath := by simp
      rw [List.foldlM_cons, bind_eq_ok, List.forall_mem_cons, hlocated, Scan.after_append, hpaths,
        List.forall_mem_append]
      constructor
      · rintro ⟨t, hinventory, hrest⟩
        obtain ⟨hadmitted, hnew, hgood, rfl, hw⟩ := (Scan.inventory_ok hs inventory).mp hinventory
        have hdistinct' : (s.collections ++ [inventory.basePath]).Nodup := by
          rw [List.nodup_append]
          refine ⟨hdistinct, List.nodup_singleton _, ?_⟩
          rintro a ha b hb rfl
          exact hnew (List.mem_singleton.mp hb ▸ ha)
        obtain ⟨hothers, hpaths', hgood', rfl, hw'⟩ := (ih hw hdistinct').mp hrest
        exact ⟨⟨hadmitted, hothers⟩, hpaths', ⟨hgood, hgood'⟩, rfl, hw'⟩
      · rintro ⟨⟨hadmitted, hothers⟩, hpaths', ⟨hgood, hgood'⟩, rfl, hw'⟩
        have hdistinct' := (List.nodup_append.mp hpaths').1
        have hnew : inventory.basePath ∉ s.collections := fun hseen =>
          (List.nodup_append.mp hdistinct').2.2 _ hseen _ (List.mem_singleton_self _) rfl
        have hw : Scan.Within q { s.after p q (inventory.located p) with
            collections := s.collections ++ [inventory.basePath] } := by
          obtain ⟨hobserved, hrevisions, hcandidates, hcoordinates⟩ := Scan.Within.of_after
            (s := s.after p q (inventory.located p)) (l := located p inventories) (p := p)
            ⟨hw'.observed, hw'.revisions, hw'.candidates, hw'.distinct⟩
          exact ⟨hobserved, hrevisions, hcandidates, hcoordinates⟩
        exact ⟨_, (Scan.inventory_ok hs inventory).mpr ⟨hadmitted, hnew, hgood, rfl, hw⟩,
          (ih hw hdistinct').mpr ⟨hothers, hpaths', hgood', rfl, hw'⟩⟩

/-! ## The plan -/

def candidates (p : Plan) (q : Request) : List Candidate :=
  (located p q.inventories).filterMap (Item.candidate? p q)

structure Admitted (h : Hash) (p : Plan) (q : Request) : Prop where
  deletes : 1 ≤ q.maximumDeletes ∧ q.maximumDeletes ≤ 8
  retained : ∀ t, q.retainRevision = some t → revisionFormat t = true
  complete : q.inventories.length = p.resources.length
  allowed : ∀ inventory ∈ q.inventories, inventory.Admitted p
  collections : (q.inventories.map Inventory.basePath).Nodup
  good : ∀ i ∈ located p q.inventories, i.Good h p
  distinct : ((located p q.inventories).filterMap (Item.coordinate? p)).Nodup
  observed : (located p q.inventories).length ≤ 2048
  revisions : ((candidates p q).map Candidate.revision).toFinset.card ≤ 2
  bounded : ((candidates p q).length : Int) ≤ q.maximumDeletes

theorem foldl_add (xs ys : List String) (hys : ys.Nodup) :
    (xs.foldl add ys).Nodup ∧ ∀ x, x ∈ xs.foldl add ys ↔ x ∈ ys ∨ x ∈ xs := by
  induction xs generalizing ys with
  | nil => exact ⟨hys, fun x => by simp⟩
  | cons y xs ih =>
      have hadd : (add ys y).Nodup ∧ ∀ x, x ∈ add ys y ↔ x ∈ ys ∨ x = y := by
        unfold add
        split
        next hmem =>
          refine ⟨hys, fun x => ⟨.inl, ?_⟩⟩
          rintro (hx | rfl)
          · exact hx
          · exact hmem
        next hnew =>
          refine ⟨List.nodup_append.mpr ⟨hys, List.nodup_singleton y, ?_⟩, fun x => by simp⟩
          rintro a ha b hb rfl
          exact hnew (List.mem_singleton.mp hb ▸ ha)
      obtain ⟨hnodup, hmem⟩ := ih _ hadd.1
      refine ⟨hnodup, fun x => ?_⟩
      rw [List.foldl_cons, hmem, hadd.2, List.mem_cons, or_assoc]

/-- A set of texts has as many elements as were added to it, each counted once. -/
theorem length_foldl_add_nil (xs : List String) : (xs.foldl add []).length = xs.toFinset.card := by
  obtain ⟨hnodup, hmem⟩ := foldl_add xs [] List.nodup_nil
  rw [← List.toFinset_card_of_nodup hnodup]
  congr 1
  ext x
  simp [hmem]

def sorted (collation : Collation) (cs : List Candidate) : List Candidate :=
  cs.mergeSort fun a b => decide (collation.compare a.apiPath b.apiPath ≤ 0)

theorem plan_ok :
    planInactiveExtensionRevisionCleanup h collation p q = .ok cs ↔
      Admitted h p q ∧ cs = sorted collation (candidates p q) := by
  unfold planInactiveExtensionRevisionCleanup
  split
  next hrefused =>
    refine iff_of_false nofun ?_
    rintro ⟨hadmitted, -⟩
    rcases hrefused with hlow | hhigh | hretained
    · exact absurd hadmitted.deletes.1 (Int.not_le.mpr hlow)
    · exact absurd hadmitted.deletes.2 (Int.not_le.mpr hhigh)
    · cases hretain : q.retainRevision with
      | none =>
          rw [hretain] at hretained
          cases hretained
      | some t =>
          rw [hretain, Option.any_some, hadmitted.retained t hretain] at hretained
          cases hretained
  next htaken =>
    simp only [not_or, Int.not_lt] at htaken
    obtain ⟨hlow, hhigh, hretained⟩ := htaken
    have hformat : ∀ t, q.retainRevision = some t → revisionFormat t = true := by
      intro t ht
      rw [ht, Option.any_some, Bool.not_eq_true', Bool.not_eq_false] at hretained
      exact hretained
    split
    next hincomplete => exact iff_of_false nofun fun hok => hincomplete hok.1.complete
    next hcomplete =>
      have hstart : Scan.Within q ⟨[], [], [], [], 0⟩ :=
        ⟨Nat.zero_le _, Nat.zero_le _, by show (0 : Int) ≤ _; omega, List.nodup_nil⟩
      rw [bind_eq_ok]
      constructor
      · rintro ⟨s, hscan, hreturn⟩
        obtain ⟨hallowed, hpaths, hgood, rfl, hw⟩ :=
          (foldlM_inventory hstart List.nodup_nil q.inventories).mp hscan
        cases hreturn
        refine ⟨⟨⟨hlow, hhigh⟩, hformat, not_not.mp hcomplete, hallowed, hpaths, hgood, hw.distinct,
          ?_, ?_, hw.candidates⟩, rfl⟩
        · simpa [Scan.after] using hw.observed
        · rw [← length_foldl_add_nil]
          exact hw.revisions
      · rintro ⟨hadmitted, rfl⟩
        refine ⟨_, (foldlM_inventory hstart List.nodup_nil q.inventories).mpr ⟨hadmitted.allowed,
          hadmitted.collections, hadmitted.good, rfl, ?_, ?_, hadmitted.bounded,
          hadmitted.distinct⟩, rfl⟩
        · simpa [Scan.after] using hadmitted.observed
        · show (List.foldl add [] _).length ≤ 2
          rw [length_foldl_add_nil]
          exact hadmitted.revisions

/-! ## Another order -/

/-- The same collection, with its resources in another order. -/
structure Inventory.Reordered (a b : Inventory) : Prop where
  basePath : b.basePath = a.basePath
  kind : b.kind = a.kind
  items : Option.Rel List.Perm a.items b.items

/-- The same collections in another order, and so in each of them. -/
inductive Reordered : List Inventory → List Inventory → Prop where
  | nil : Reordered [] []
  | cons {a b : Inventory} {l m : List Inventory} :
      a.Reordered b → Reordered l m → Reordered (a :: l) (b :: m)
  | swap (a b : Inventory) (l : List Inventory) : Reordered (b :: a :: l) (a :: b :: l)
  | trans {l m n : List Inventory} : Reordered l m → Reordered m n → Reordered l n

theorem Inventory.Reordered.symm (hab : a.Reordered b) : b.Reordered a := by
  obtain ⟨hpath, hkind, hitems⟩ := hab
  refine ⟨hpath.symm, hkind.symm, ?_⟩
  cases ha : a.items with
  | none =>
      rw [ha] at hitems
      cases hb : b.items with
      | none => exact .none
      | some m =>
          rw [hb] at hitems
          cases hitems
  | some l =>
      rw [ha] at hitems
      cases hb : b.items with
      | none =>
          rw [hb] at hitems
          cases hitems
      | some m =>
          rw [hb] at hitems
          cases hitems with
          | some hperm => exact .some hperm.symm

theorem Reordered.symm (hlm : Reordered l m) : Reordered m l := by
  induction hlm with
  | nil => exact .nil
  | cons hab hrest ih => exact .cons hab.symm ih
  | swap a b l => exact .swap b a l
  | trans hlm hmn ih ih' => exact ih'.trans ih

theorem Inventory.Reordered.admitted (hab : a.Reordered b)
    (hadmitted : a.Admitted p) : b.Admitted p := by
  obtain ⟨c, resources, hallowed, hitems, hkind⟩ := hadmitted
  have hrel := hab.items
  rw [hitems] at hrel
  cases hb : b.items with
  | none =>
      rw [hb] at hrel
      cases hrel
  | some m => exact ⟨c, m, hab.basePath ▸ hallowed, hb, hkind.trans hab.kind.symm⟩

theorem Inventory.Reordered.located (hab : a.Reordered b) :
    (a.located p).Perm (b.located p) := by
  have hrel := hab.items
  unfold Inventory.located
  rw [hab.basePath]
  cases p.allowed a.basePath with
  | none => exact .refl _
  | some c =>
      cases ha : a.items with
      | none =>
          cases hb : b.items with
          | none => exact .refl _
          | some m =>
              rw [ha, hb] at hrel
              cases hrel
      | some l =>
          cases hb : b.items with
          | none =>
              rw [ha, hb] at hrel
              cases hrel
          | some m =>
              rw [ha, hb] at hrel
              cases hrel with
              | some hperm => exact hperm.map _

theorem Reordered.located (hlm : Reordered l m) :
    (located p l).Perm (located p m) := by
  induction hlm with
  | nil => exact .refl _
  | cons hab hrest ih => exact hab.located.append ih
  | swap a b l =>
      show (b.located p ++ (a.located p ++ Extension.located p l)).Perm
        (a.located p ++ (b.located p ++ Extension.located p l))
      rw [← List.append_assoc, ← List.append_assoc]
      exact List.perm_append_comm.append_right _
  | trans hlm hmn ih ih' => exact ih.trans ih'

theorem Reordered.paths (hlm : Reordered l m) :
    (l.map Inventory.basePath).Perm (m.map Inventory.basePath) := by
  induction hlm with
  | nil => exact .refl _
  | cons hab hrest ih =>
      rw [List.map_cons, List.map_cons, hab.basePath]
      exact ih.cons _
  | swap a b l => exact .swap _ _ _
  | trans hlm hmn ih ih' => exact ih.trans ih'

theorem Reordered.admitted (hlm : Reordered l m)
    (hl : ∀ a ∈ l, a.Admitted p) : ∀ b ∈ m, b.Admitted p := by
  induction hlm with
  | nil => exact nofun
  | cons hab hrest ih =>
      obtain ⟨ha, hothers⟩ := List.forall_mem_cons.mp hl
      exact List.forall_mem_cons.mpr ⟨hab.admitted ha, ih hothers⟩
  | swap a b l => exact fun c hc => hl c ((List.Perm.swap b a l).mem_iff.mp hc)
  | trans hlm hmn ih ih' => exact ih' (ih hl)

def Request.with (q : Request) (inventories : List Inventory) : Request :=
  { q with inventories := inventories }

theorem candidates_perm (hm : Reordered q.inventories m) :
    (candidates p q).Perm (candidates p (q.with m)) :=
  hm.located.filterMap _

theorem Admitted.reordered (hm : Reordered q.inventories m)
    (hadmitted : Admitted h p q) : Admitted h p (q.with m) := by
  have hlocated := hm.located (p := p)
  have hcandidates := candidates_perm (p := p) hm
  refine ⟨hadmitted.deletes, hadmitted.retained, ?_, hm.admitted hadmitted.allowed, ?_, ?_, ?_, ?_,
    ?_, ?_⟩
  · rw [← hadmitted.complete]
    have hlength := hm.paths.length_eq
    rw [List.length_map, List.length_map] at hlength
    exact hlength.symm
  · exact hm.paths.nodup_iff.mp hadmitted.collections
  · exact fun i hi => hadmitted.good i (hlocated.mem_iff.mpr hi)
  · exact (hlocated.filterMap _).nodup_iff.mp hadmitted.distinct
  · show (located p m).length ≤ 2048
    rw [← hlocated.length_eq]
    exact hadmitted.observed
  · rw [← List.toFinset_eq_of_perm _ _ (hcandidates.map _)]
    exact hadmitted.revisions
  · rw [← hcandidates.length_eq]
    exact hadmitted.bounded

/-! ## The order of the plan -/

theorem candidate_some :
    i.candidate? p q = some c ↔ i.Claims p ∧ ∃ e, evidenceOf i.resource = .ok e ∧
      inactive p q i.collection i.resource e = true ∧
      c = candidateOf i.collection i.resource e := by
  unfold Item.candidate?
  split
  next hclaims =>
    rw [and_iff_right hclaims]
    split
    next e he =>
      split
      next hinactive =>
        constructor
        · rintro ⟨⟩
          exact ⟨e, he, hinactive, rfl⟩
        · rintro ⟨e', he', -, rfl⟩
          rw [he] at he'
          cases he'
          rfl
      next hkept =>
        refine iff_of_false nofun ?_
        rintro ⟨e', he', hinactive, -⟩
        rw [he] at he'
        cases he'
        exact hkept hinactive
    next f hf =>
      refine iff_of_false nofun ?_
      rintro ⟨e', he', -⟩
      rw [hf] at he'
      cases he'
  next hpassed => exact iff_of_false nofun fun hclaims => hpassed hclaims.1

theorem apiPaths_sublist (l : List Item) :
    List.Sublist ((l.filterMap (Item.candidate? p q)).map Candidate.apiPath)
      (l.filterMap (Item.coordinate? p)) := by
  induction l with
  | nil => exact .slnil
  | cons i l ih =>
      cases hi : i.candidate? p q with
      | none =>
          rw [List.filterMap_cons_none hi]
          exact ih.trans ((List.sublist_cons_self i l).filterMap _)
      | some c =>
          obtain ⟨hclaims, e, -, -, rfl⟩ := candidate_some.mp hi
          have hcoordinate : i.coordinate? p = some (coordinate i.collection i.resource) :=
            if_pos hclaims
          rw [List.filterMap_cons_some hi, List.filterMap_cons_some hcoordinate, List.map_cons]
          exact ih.cons_cons _

theorem Admitted.nodup (hadmitted : Admitted h p q) :
    ((candidates p q).map Candidate.apiPath).Nodup :=
  (apiPaths_sublist _).nodup hadmitted.distinct

def pathChar : Char → Bool := orOneOf (fun c => lower c || digit c) ['-', '.', '/']

theorem pathChar_of_label {c : Char} (hc : Catalog.labelChar c = true) : pathChar c = true := by
  simp only [Catalog.labelChar, Catalog.alphanumeric, orOneOf, Bool.or_eq_true,
    List.contains_cons, List.contains_nil, Bool.or_false, beq_iff_eq] at hc
  simp only [pathChar, orOneOf, Bool.or_eq_true, List.contains_cons, List.contains_nil,
    Bool.or_false, beq_iff_eq]
  rcases hc with hc | rfl
  · exact .inl hc
  · exact .inr (.inl rfl)

theorem pathChar_label (ht : Catalog.dnsLabel t = true) :
    ∀ c ∈ chars t, pathChar c = true := by
  have hwithin : Pattern.Within Catalog.labelChar (.seq [.times Catalog.alphanumeric 1,
      .opt (.seq [.repeated Catalog.labelChar 0 (some 61), .times Catalog.alphanumeric 1])]) := by
    have hone : ∀ c, Catalog.alphanumeric c = true → Catalog.labelChar c = true := by
      intro c hc
      simp [Catalog.labelChar, orOneOf, hc]
    refine Pattern.within_seq (List.forall_mem_cons.mpr ⟨Pattern.within_repeated hone _ _,
      List.forall_mem_cons.mpr ⟨Pattern.within_opt (Pattern.within_seq (List.forall_mem_cons.mpr
        ⟨Pattern.within_repeated (fun _ hc => hc) _ _, List.forall_mem_cons.mpr
          ⟨Pattern.within_repeated hone _ _, by simp⟩⟩)), by simp⟩⟩)
  exact fun c hc => pathChar_of_label (hwithin.full ht c hc)

theorem pathChar_revisionName {token : List Char} (ht : ∀ c ∈ chars t, pathChar c = true)
    (htoken : ∀ c ∈ token, pathChar c = true) :
    ∀ c ∈ chars (Catalog.revisionName t token), pathChar c = true := by
  intro c hc
  simp only [Catalog.revisionName, chars_ofList, List.mem_append] at hc
  rcases hc with (hc | hc) | hc
  · exact ht c (List.mem_of_mem_take ((List.rdropWhile_prefix _ _).subset hc))
  · exact List.all_eq_true.mp (by decide : (chars "-r-").all pathChar = true) c hc
  · exact htoken c hc

theorem mem_chars_append {s : String} {c : Char} :
    c ∈ chars (s ++ t) ↔ c ∈ chars s ∨ c ∈ chars t := by
  rw [chars_eq, chars_eq, chars_eq, String.toList_append, List.mem_append]

theorem pathChar_append {s : String} (hs : ∀ c ∈ chars s, pathChar c = true)
    (ht : ∀ c ∈ chars t, pathChar c = true) : ∀ c ∈ chars (s ++ t), pathChar c = true :=
  fun c hc => (mem_chars_append.mp hc).elim (hs c) (ht c)

theorem pathChar_literal (ht : (chars t).all pathChar = true) :
    ∀ c ∈ chars t, pathChar c = true :=
  fun c hc => List.all_eq_true.mp ht c hc

theorem pathChar_basePath {c : Collection} (hc : c ∈ p.resources) :
    ∀ d ∈ chars c.basePath, pathChar d = true := by
  have hnamespace := pathChar_label p.namespace_label
  have hpath : ∀ front back : String, (chars front).all pathChar = true →
      (chars back).all pathChar = true →
      ∀ d ∈ chars (front ++ p.namespace' ++ back), pathChar d = true :=
    fun front back hfront hback =>
      pathChar_append (pathChar_append (pathChar_literal hfront) hnamespace) (pathChar_literal hback)
  unfold Plan.resources at hc
  rcases List.mem_append.mp hc with hc | hc
  · split at hc
    · exact (List.not_mem_nil hc).elim
    · obtain rfl := List.mem_singleton.mp hc
      exact hpath _ _ (by decide) (by decide)
  · simp only [List.mem_cons, List.not_mem_nil, or_false] at hc
    rcases hc with rfl | rfl | rfl
    · exact hpath _ _ (by decide) (by decide)
    · exact hpath _ _ (by decide) (by decide)
    · exact hpath _ _ (by decide) (by decide)

theorem pathChar_revision (ht : revisionFormat t = true) :
    ∀ c ∈ chars t, pathChar c = true := by
  intro c hc
  have hhex := (Pattern.full_repeated.mp ht).1 c hc
  have hlabel : Catalog.labelChar c = true := by
    simp only [hexLower, Bool.or_eq_true, Bool.and_eq_true, decide_eq_true_eq] at hhex
    simp only [Catalog.labelChar, Catalog.alphanumeric, orOneOf, lower, Bool.or_eq_true,
      Bool.and_eq_true, decide_eq_true_eq]
    rcases hhex with hdigit | ⟨hlo, hhi⟩
    · exact .inl (.inr hdigit)
    · refine .inl (.inl ⟨hlo, ?_⟩)
      simp only [Char.le_def, UInt32.le_iff_toNat_le] at hhi ⊢
      exact Nat.le_trans hhi (by decide)
  exact pathChar_of_label hlabel

theorem located_collection {inventories : List Inventory}
    (hi : i ∈ located p inventories) : i.collection ∈ p.resources := by
  obtain ⟨inventory, -, hi⟩ := List.mem_flatMap.mp hi
  unfold Inventory.located at hi
  split at hi
  next c resources hallowed _ =>
    obtain ⟨r, -, rfl⟩ := List.mem_map.mp hi
    exact List.mem_of_find?_eq_some hallowed
  next => exact (List.not_mem_nil hi).elim

theorem plain_apiPath (hadmitted : Admitted h p q) (hc : c ∈ candidates p q) :
    Js.Plain c.apiPath := by
  obtain ⟨i, hi, hsome⟩ := List.mem_filterMap.mp hc
  obtain ⟨hclaims, e, he, hinactive, rfl⟩ := candidate_some.mp hsome
  obtain ⟨-, e', he', hproper⟩ := (hadmitted.good i hi).2 hclaims
  rw [he] at he'
  cases he'
  simp only [proper, Bool.and_eq_true, beq_iff_eq] at hproper
  obtain ⟨⟨⟨⟨⟨⟨hformat, -⟩, hname⟩, -⟩, -⟩, -⟩, -⟩ := hproper
  have hstable : stableService p i.collection i.resource = false := by
    simp only [inactive, Bool.and_eq_true, Bool.not_eq_true'] at hinactive
    exact hinactive.1
  have hlabel := pathChar_label p.name_label
  have hrevision := pathChar_revision hformat
  have hexpected : ∀ d ∈ chars (nameOf i.resource), pathChar d = true := by
    rw [hname, expectedName, hstable, if_neg Bool.false_ne_true]
    split
    · exact pathChar_revisionName (pathChar_append (pathChar_literal (by decide)) hlabel)
        fun d hd => hrevision d (List.mem_of_mem_take hd)
    · exact pathChar_revisionName hlabel hrevision
  exact pathChar_append (pathChar_append (pathChar_basePath (located_collection hi))
    (pathChar_literal (by decide))) hexpected

theorem sorted_eq (hadmitted : Admitted h p q)
    (hcs : (candidates p q).Perm cs) :
    sorted collation cs = sorted collation (candidates p q) := by
  have htrans : ∀ a b c : Candidate, decide (collation.compare a.apiPath b.apiPath ≤ 0) = true →
      decide (collation.compare b.apiPath c.apiPath ≤ 0) = true →
      decide (collation.compare a.apiPath c.apiPath ≤ 0) = true := by
    intro a b c hab hbc
    exact decide_eq_true (collation.trans _ _ _ (of_decide_eq_true hab) (of_decide_eq_true hbc))
  have htotal : ∀ a b : Candidate, (decide (collation.compare a.apiPath b.apiPath ≤ 0) ||
      decide (collation.compare b.apiPath a.apiPath ≤ 0)) = true := by
    intro a b
    rw [Bool.or_eq_true, decide_eq_true_iff, decide_eq_true_iff]
    exact collation.total _ _
  refine List.Perm.eq_of_pairwise ?_ (List.pairwise_mergeSort htrans htotal _)
    (List.pairwise_mergeSort htrans htotal _)
    ((List.mergeSort_perm _ _).trans (hcs.symm.trans (List.mergeSort_perm _ _).symm))
  intro a b ha hb hab hba
  have ha' := hcs.mem_iff.mpr ((List.mergeSort_perm _ _).mem_iff.mp ha)
  have hb' := (List.mergeSort_perm _ _).mem_iff.mp hb
  have hpath := collation.eq_of_le (plain_apiPath hadmitted ha') (plain_apiPath hadmitted hb')
    (of_decide_eq_true hab) (of_decide_eq_true hba)
  exact List.inj_on_of_nodup_map hadmitted.nodup ha' hb' hpath

theorem plan_reordered (hm : Reordered q.inventories m)
    (hcs : planInactiveExtensionRevisionCleanup h collation p q = .ok cs) :
    planInactiveExtensionRevisionCleanup h collation p (q.with m) = .ok cs := by
  obtain ⟨hadmitted, rfl⟩ := plan_ok.mp hcs
  exact plan_ok.mpr ⟨hadmitted.reordered hm, (sorted_eq hadmitted (candidates_perm hm)).symm⟩

/-! ## What is deleted -/

structure Owned (p : Plan) (resource : Value) : Prop where
  managed : (labels resource).get "app.kubernetes.io/managed-by" =
    .string "opensphere-extension-controller"
  extension : (labels resource).get "opensphere.io/extension-id" = .string p.name
  owner : ∃ xs owner, owners resource = .array xs ∧ owner ∈ xs.toList ∧
    owner.get "apiVersion" = .string "plugins.opensphere.io/v1alpha1" ∧
    owner.get "kind" = .string "UIPluginPackage" ∧ owner.get "name" = .string p.name ∧
    owner.get "uid" = .string p.uid ∧ owner.get "controller" = .boolean true ∧
    owner.get "blockOwnerDeletion" = .boolean false

theorem is_iff {x : Value} : is x t = true ↔ x = .string t := by
  cases x <;> simp [is]

theorem isBoolean_iff {x : Value} {b : Bool} : isBoolean x b = true ↔ x = .boolean b := by
  cases x <;> simp [isBoolean]

theorem owned_iff {resource : Value} : owned p resource = true ↔ Owned p resource := by
  have howner : anyOwner (exactOwner p) resource = true ↔ ∃ xs owner, owners resource = .array xs ∧
      owner ∈ xs.toList ∧ exactOwner p owner = true := by
    unfold anyOwner
    split
    next xs hxs =>
      rw [List.any_eq_true]
      constructor
      · rintro ⟨owner, hmem, hexact⟩
        exact ⟨xs, owner, hxs, hmem, hexact⟩
      · rintro ⟨ys, owner, hys, hmem, hexact⟩
        rw [hxs] at hys
        cases hys
        exact ⟨owner, hmem, hexact⟩
    next hnone =>
      refine iff_of_false Bool.false_ne_true ?_
      rintro ⟨xs, -, hxs, -⟩
      exact hnone xs hxs
  rw [owned, Bool.and_eq_true, Bool.and_eq_true, is_iff, is_iff, howner]
  simp only [exactOwner, targetOwner, Bool.and_eq_true, is_iff, isBoolean_iff, and_assoc]
  exact ⟨fun ⟨hmanaged, hextension, howner⟩ => ⟨hmanaged, hextension, howner⟩,
    fun ⟨hmanaged, hextension, howner⟩ => ⟨hmanaged, hextension, howner⟩⟩

theorem Owned.claims (howned : Owned p i.resource) : i.Claims p := by
  have hlabel : is ((labels i.resource).get "opensphere.io/extension-id") p.name = true :=
    is_iff.mpr howned.extension
  simp [Item.Claims, claimsTarget, hlabel]

def Item.Deleted (p : Plan) (q : Request) (i : Item) (c : Candidate) : Prop :=
  Owned p i.resource ∧ stableService p i.collection i.resource = false ∧
    ∃ e, evidenceOf i.resource = .ok e ∧ q.retainRevision ≠ some e.revision ∧
      c = candidateOf i.collection i.resource e

theorem candidate_deleted (hadmitted : Admitted h p q) (hi : i ∈ located p q.inventories) :
    i.candidate? p q = some c ↔ i.Deleted p q c := by
  have hinactive : ∀ e, inactive p q i.collection i.resource e = true ↔
      stableService p i.collection i.resource = false ∧ q.retainRevision ≠ some e.revision := by
    intro e
    unfold inactive
    cases q.retainRevision with
    | none => simp
    | some t =>
        simp only [Option.all_some, Bool.and_eq_true, Bool.not_eq_true', bne_iff_ne, ne_eq,
          Option.some.injEq]
        exact and_congr_right fun _ => not_congr eq_comm
  rw [candidate_some]
  constructor
  · rintro ⟨hclaims, e, he, htaken, rfl⟩
    obtain ⟨-, e', he', hproper⟩ := (hadmitted.good i hi).2 hclaims
    simp only [proper, Bool.and_eq_true] at hproper
    obtain ⟨⟨⟨⟨-, howned⟩, -⟩, -⟩, -⟩ := hproper
    obtain ⟨hstable, hretained⟩ := (hinactive e).mp htaken
    exact ⟨owned_iff.mp howned, hstable, e, he, hretained, rfl⟩
  · rintro ⟨howned, hstable, e, he, hretained, rfl⟩
    exact ⟨howned.claims, e, he, (hinactive e).mpr ⟨hstable, hretained⟩, rfl⟩

/-- A cleanup deletes what it may.  Where a plan is made, it has exactly the resources which the
registration owns, which belong to a revision that is not retained, and which are not the stable
Service, each once, within the bounds on deletions and on revisions.  Another order of the
inventory gives the same plan, or none either, and a resource that claims the extension and is
not well formed leaves none. -/
theorem cleanup_exact (h : Hash) (collation : Collation) (p : Plan) (q : Request) :
    (∀ cs, planInactiveExtensionRevisionCleanup h collation p q = .ok cs →
      (∀ c, c ∈ cs ↔ ∃ i ∈ located p q.inventories, i.Deleted p q c) ∧
      (cs.map Candidate.apiPath).Nodup ∧ (cs.length : Int) ≤ q.maximumDeletes ∧
      (cs.map Candidate.revision).toFinset.card ≤ 2) ∧
    (∀ inventories, Reordered q.inventories inventories →
      (planInactiveExtensionRevisionCleanup h collation p (q.with inventories)).toOption =
        (planInactiveExtensionRevisionCleanup h collation p q).toOption) ∧
    ∀ i ∈ located p q.inventories, i.Claims p → ¬ i.WellFormed h p →
      ∃ f, planInactiveExtensionRevisionCleanup h collation p q = .error f := by
  refine ⟨fun cs hcs => ?_, fun inventories hinventories => ?_, fun i hi hclaims hmalformed => ?_⟩
  · obtain ⟨hadmitted, rfl⟩ := plan_ok.mp hcs
    have hperm : (sorted collation (candidates p q)).Perm (candidates p q) :=
      List.mergeSort_perm _ _
    refine ⟨fun c => ?_, ?_, ?_, ?_⟩
    · rw [hperm.mem_iff, candidates, List.mem_filterMap]
      exact exists_congr fun i => and_congr_right fun hi => candidate_deleted hadmitted hi
    · exact (hperm.map _).nodup_iff.mpr hadmitted.nodup
    · rw [hperm.length_eq]
      exact hadmitted.bounded
    · rw [List.toFinset_eq_of_perm _ _ (hperm.map _)]
      exact hadmitted.revisions
  · cases hresult : planInactiveExtensionRevisionCleanup h collation p q with
    | ok cs => rw [plan_reordered hinventories hresult]
    | error f =>
        cases hother : planInactiveExtensionRevisionCleanup h collation p (q.with inventories) with
        | ok cs =>
            have hback := plan_reordered (q := q.with inventories) hinventories.symm hother
            have hsame : (q.with inventories).with q.inventories = q := rfl
            rw [hsame, hresult] at hback
            cases hback
        | error f' => rfl
  · cases hresult : planInactiveExtensionRevisionCleanup h collation p q with
    | error f => exact ⟨f, rfl⟩
    | ok cs => exact absurd (((plan_ok.mp hresult).1.good i hi).2 hclaims) hmalformed

end Extension
