import OpenSphere.Catalog.Snapshot

/-!
# What the loop over the packages makes

The loop looks at the first package of each name.  What it publishes and refuses are lists over
those packages, `Input.looked`.
-/

open Js (Members)

namespace Catalog

/-- The packages whose names are not among those seen before. -/
def unseen : List String → List Resource → List Resource
  | _, [] => []
  | seen, pkg :: pkgs =>
      if seen.contains pkg.name then unseen seen pkgs else pkg :: unseen (pkg.name :: seen) pkgs

def Input.looked (input : Input) : List Resource := unseen [] input.packages

section

variable {L : Library} {now : String → Int} {input : Input}

theorem unseen_eq_self : ∀ {seen : List String} {pkgs : List Resource},
    (pkgs.map Resource.name).Nodup → (∀ pkg ∈ pkgs, pkg.name ∉ seen) → unseen seen pkgs = pkgs
  | _, [], _, _ => rfl
  | seen, pkg :: pkgs, hnodup, hseen => by
      rw [List.map_cons, List.nodup_cons] at hnodup
      rw [unseen, if_neg (by simpa using hseen pkg (List.mem_cons_self ..)),
        unseen_eq_self hnodup.2 ?_]
      intro q hq hmem
      rcases List.mem_cons.mp hmem with hname | hmem
      · exact hnodup.1 (hname ▸ List.mem_map_of_mem hq)
      · exact hseen q (List.mem_cons_of_mem _ hq) hmem

theorem looked_eq (h : (input.packages.map Resource.name).Nodup) : input.looked = input.packages :=
  unseen_eq_self h fun _ _ hmem => nomatch hmem

/-! ## Plugins and candidates -/

theorem successes_cons {ε α : Type} (x : Except ε α) (xs : List (Except ε α)) :
    successes (x :: xs) = successes [x] ++ successes xs := by
  cases x <;> simp [successes]

theorem failures_cons {ε α : Type} (x : Except ε α) (xs : List (Except ε α)) :
    failures (x :: xs) = failures [x] ++ failures xs := by
  cases x <;> simp [failures]

theorem foldl_plugins : ∀ (pkgs : List Resource) (d : Draft),
    (pkgs.foldl (Draft.visit L now input) d).plugins =
      d.plugins ++ (unseen d.seen pkgs).flatMap fun pkg => (publish L input pkg).1.toList
  | [], d => (List.append_nil _).symm
  | pkg :: pkgs, d => by
      rw [List.foldl_cons, foldl_plugins pkgs, Draft.visit, unseen]
      split
      · rfl
      · simp only [List.flatMap_cons, List.append_assoc]

theorem draft_plugins :
    (draft L now input).plugins = input.looked.flatMap fun pkg => (publish L input pkg).1.toList :=
  foldl_plugins _ _

theorem foldl_candidates : ∀ (pkgs : List Resource) (d : Draft),
    (pkgs.foldl (Draft.visit L now input) d).candidates =
      d.candidates ++ successes ((unseen d.seen pkgs).map fun pkg =>
        installableExtensionFromPackage L (now pkg.name) pkg input.trustedKeys)
  | [], d => (List.append_nil _).symm
  | pkg :: pkgs, d => by
      rw [List.foldl_cons, foldl_candidates pkgs, Draft.visit, unseen]
      split
      · rfl
      · simp only [List.map_cons, successes_cons _ (List.map _ _), List.append_assoc]

theorem draft_candidates :
    (draft L now input).candidates = successes (input.looked.map fun pkg =>
      installableExtensionFromPackage L (now pkg.name) pkg input.trustedKeys) :=
  foldl_candidates _ _

/-! ## What is refused -/

theorem foldl_rejected : ∀ (pkgs : List Resource) (d : Draft),
    (pkgs.map Resource.name).Nodup → (∀ pkg ∈ pkgs, pkg.name ∉ d.seen) →
    (pkgs.foldl (Draft.visit L now input) d).rejected =
        d.rejected ++ pkgs.flatMap (fun pkg =>
          failures [installableExtensionFromPackage L (now pkg.name) pkg input.trustedKeys] ++
            (publish L input pkg).2.toList) ∧
      (pkgs.foldl (Draft.visit L now input) d).candidateRejections =
        d.candidateRejections ++ failures (pkgs.map fun pkg =>
          installableExtensionFromPackage L (now pkg.name) pkg input.trustedKeys)
  | [], d, _, _ => ⟨(List.append_nil _).symm, (List.append_nil _).symm⟩
  | pkg :: pkgs, d, hnodup, hseen => by
      rw [List.map_cons, List.nodup_cons] at hnodup
      have hfresh : d.seen.contains pkg.name = false := by
        simpa using hseen pkg (List.mem_cons_self ..)
      have hrest : ∀ q ∈ pkgs, q.name ∉ (Draft.visit L now input d pkg).seen := by
        intro q hq hmem
        rw [Draft.visit, hfresh] at hmem
        rcases List.mem_cons.mp hmem with hname | hmem
        · exact hnodup.1 (hname ▸ List.mem_map_of_mem hq)
        · exact hseen q (List.mem_cons_of_mem _ hq) hmem
      obtain ⟨hrejected, hcandidates⟩ := foldl_rejected pkgs _ hnodup.2 hrest
      rw [List.foldl_cons, hrejected, hcandidates, Draft.visit, hfresh, List.map_cons,
        failures_cons _ (List.map _ _)]
      simp only [Bool.false_eq_true, if_false, List.flatMap_cons, List.append_assoc, and_self]

theorem draft_rejected (h : (input.packages.map Resource.name).Nodup) :
    (draft L now input).rejected = input.packages.flatMap (fun pkg =>
          failures [installableExtensionFromPackage L (now pkg.name) pkg input.trustedKeys] ++
            (publish L input pkg).2.toList) ∧
      (draft L now input).candidateRejections = failures (input.packages.map fun pkg =>
          installableExtensionFromPackage L (now pkg.name) pkg input.trustedKeys) :=
  foldl_rejected _ _ h fun _ _ hmem => nomatch hmem

end

/-! ## Sorting -/

section

variable {α κ : Type} [LinearOrder κ] {key : α → κ} {l l' : List α}

theorem mem_sortOn {a : α} : a ∈ sortOn key l ↔ a ∈ l := List.mem_insertionSort _

theorem sortOn_perm (key : α → κ) (l : List α) : (sortOn key l).Perm l := List.perm_insertionSort _ _

theorem sortOn_sorted (key : α → κ) (l : List α) :
    (sortOn key l).Pairwise fun a b => key a ≤ key b :=
  List.pairwise_insertionSort _ _

/-- Two sorted lists of the same elements are the same where the key tells the elements apart. -/
theorem eq_of_sorted (hperm : l.Perm l') (hl : l.Pairwise fun a b => key a ≤ key b)
    (hl' : l'.Pairwise fun a b => key a ≤ key b)
    (hkey : ∀ a ∈ l, ∀ b ∈ l, key a = key b → a = b) : l = l' := by
  refine List.Perm.eq_of_pairwise ?_ hl hl' hperm
  intro a b ha hb hab hba
  exact hkey a ha b (hperm.mem_iff.mpr hb) (le_antisymm hab hba)

theorem sortOn_eq_of_perm (hperm : l.Perm l')
    (hkey : ∀ a ∈ l, ∀ b ∈ l, key a = key b → a = b) : sortOn key l = sortOn key l' := by
  refine eq_of_sorted ?_ (sortOn_sorted key l) (sortOn_sorted key l') ?_
  · exact (sortOn_perm key l).trans (hperm.trans (sortOn_perm key l').symm)
  · intro a ha b hb heq
    exact hkey a (mem_sortOn.mp ha) b (mem_sortOn.mp hb) heq

end

section

variable {ε α : Type} {xs ys : List (Except ε α)}

theorem mem_successes {a : α} : a ∈ successes xs ↔ .ok a ∈ xs := by
  induction xs with
  | nil => simp [successes]
  | cons x xs ih => cases x <;> simp [successes, ih]

theorem mem_failures {e : ε} : e ∈ failures xs ↔ .error e ∈ xs := by
  induction xs with
  | nil => simp [failures]
  | cons x xs ih => cases x <;> simp [failures, ih]

theorem successes_perm (h : xs.Perm ys) : (successes xs).Perm (successes ys) := by
  induction h with
  | nil => exact .nil
  | cons x _ ih =>
      cases x with
      | error e => exact ih
      | ok a => exact ih.cons a
  | swap x y l => cases x <;> cases y <;> simp [successes, List.Perm.swap]
  | trans _ _ ih ih' => exact ih.trans ih'

theorem failures_perm (h : xs.Perm ys) : (failures xs).Perm (failures ys) := by
  induction h with
  | nil => exact .nil
  | cons x _ ih =>
      cases x with
      | error e => exact ih.cons e
      | ok a => exact ih
  | swap x y l => cases x <;> cases y <;> simp [failures, List.Perm.swap]
  | trans _ _ ih ih' => exact ih.trans ih'

end

end Catalog
