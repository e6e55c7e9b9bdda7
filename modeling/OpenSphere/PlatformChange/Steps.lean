import OpenSphere.Lifecycle.Frame
import OpenSphere.PlatformChange.System

/-!
# What the requests change

A request to the database is one of its functions.  Nothing that is asked or done besides takes an
operation, an event, a branch or a pull request away.
-/

open Sql
open Authority (Statement Digest)

namespace PlatformChange

variable {α : Type} {b' h sha : String} {m n : Nat} {head : Option String} {x : Repository × Pull}
  {p : Pull} {b : String}

/-! ## The repository -/

namespace Repository

variable {r r' : Repository}

/-- Commits, branches and pull requests stay, and what is merged stays merged. -/
structure Later (r r' : Repository) : Prop where
  commits : ∀ sha c, r.commit sha = some c → r'.commit sha = some c
  branches : ∀ b, (r.head b).isSome → (r'.head b).isSome
  pulls : ∀ p ∈ r.pulls, ∃ p' ∈ r'.pulls, p'.number = p.number ∧ p'.branch = p.branch ∧
    ∀ m, p.merged = some m → p'.merged = some m

theorem Later.of_same {r r' : Repository} (hcommits : r'.commits = r.commits)
    (hbranches : r'.branches = r.branches) (hpulls : ∀ p ∈ r.pulls, p ∈ r'.pulls) : r.Later r' where
  commits sha c h := by rwa [commit, hcommits]
  branches b h := by rwa [head, hbranches]
  pulls p hp := ⟨p, hpulls p hp, rfl, rfl, fun _ h => h⟩

theorem Later.refl (r : Repository) : r.Later r := .of_same rfl rfl fun _ h => h

theorem Later.trans {r'' : Repository} (h : r.Later r') (h' : r'.Later r'') : r.Later r'' where
  commits sha c hc := h'.commits sha c (h.commits sha c hc)
  branches b hb := h'.branches b (h.branches b hb)
  pulls p hp := by
    obtain ⟨p', hp', hnumber, hbranch, hmerged⟩ := h.pulls p hp
    obtain ⟨p'', hp'', hnumber', hbranch', hmerged'⟩ := h'.pulls p' hp'
    exact ⟨p'', hp'', hnumber'.trans hnumber, hbranch'.trans hbranch,
      fun m hm => hmerged' m (hmerged m hm)⟩

@[simp] theorem addCommit_branches (c : Commit) : (r.addCommit c).branches = r.branches := by
  unfold addCommit
  split <;> rfl

@[simp] theorem addCommit_pulls (c : Commit) : (r.addCommit c).pulls = r.pulls := by
  unfold addCommit
  split <;> rfl

@[simp] theorem setBranch_pulls (b sha : String) : (r.setBranch b sha).pulls = r.pulls := rfl

theorem head_setBranch (b sha b' : String) :
    (r.setBranch b sha).head b' = if b' = b then some sha else r.head b' := by
  by_cases hb : b' = b
  · subst hb
    simp [head, setBranch]
  · have hfilter : ∀ l : List (String × String),
        (l.filter fun x => !decide (x.1 = b)).lookup b' = l.lookup b' := by
      intro l
      induction l with
      | nil => rfl
      | cons x xs ih =>
          by_cases hx : x.1 = b
          · rw [List.filter_cons_of_neg (by simp [hx]), ih, List.lookup_cons,
              beq_eq_false_iff_ne.mpr (by rw [hx]; exact hb)]
          · rw [List.filter_cons_of_pos (by simp [hx]), List.lookup_cons, List.lookup_cons, ih]
    rw [if_neg hb, head, setBranch, List.lookup_cons, beq_eq_false_iff_ne.mpr hb]
    exact hfilter r.branches

theorem later_setBranch (b sha : String) : r.Later (r.setBranch b sha) where
  commits _ _ h := h
  branches b' hb := by
    rw [head_setBranch]
    split
    · rfl
    · exact hb
  pulls p hp := ⟨p, hp, rfl, rfl, fun _ h => h⟩

theorem later_addCommit (c : Commit) : r.Later (r.addCommit c) where
  commits sha x h := by
    unfold addCommit
    split
    · exact h
    next hnew =>
      have hsha : c.sha ≠ sha := by
        rintro rfl
        exact hnew (by rw [h]; rfl)
      rw [commit, List.find?_cons_of_neg (by simpa using hsha)]
      exact h
  branches b hb := by simpa [head] using hb
  pulls p hp := ⟨p, by simpa using hp, rfl, rfl, fun _ h => h⟩

theorem mem_setPull {q : Pull} (h : q ∈ (r.setPull p).pulls) : q = p ∨ q ∈ r.pulls := by
  obtain ⟨x, hx, rfl⟩ := List.mem_map.mp h
  split
  · exact .inl rfl
  · exact .inr hx

theorem later_setPull (h : ∀ q ∈ r.pulls, q.number = p.number →
    q.branch = p.branch ∧ ∀ m, q.merged = some m → p.merged = some m) : r.Later (r.setPull p) where
  commits _ _ h := h
  branches _ hb := hb
  pulls q hq := by
    refine ⟨if q.number = p.number then p else q, List.mem_map.mpr ⟨q, hq, rfl⟩, ?_⟩
    split
    next hnumber => exact ⟨hnumber.symm, (h q hq hnumber).1.symm, (h q hq hnumber).2⟩
    next => exact ⟨rfl, rfl, fun _ h => h⟩

def Numbered (r : Repository) : Prop := (r.pulls.map Pull.number).Nodup

theorem Numbered.eq (h : r.Numbered) {q : Pull} (hp : p ∈ r.pulls) (hq : q ∈ r.pulls)
    (hnumber : p.number = q.number) : p = q :=
  List.inj_on_of_nodup_map h hp hq hnumber

theorem pull_eq_some (h : r.pull n = some p) : p ∈ r.pulls ∧ p.number = n :=
  ⟨List.mem_of_find?_eq_some h, by simpa using List.find?_some h⟩

theorem Numbered.pull (h : r.Numbered) (hp : p ∈ r.pulls) : r.pull p.number = some p := by
  cases hfind : r.pull p.number with
  | none => exact absurd (List.find?_eq_none.mp hfind p hp) (by simp)
  | some q =>
      obtain ⟨hq, hnumber⟩ := pull_eq_some hfind
      rw [h.eq hq hp hnumber]

theorem Numbered.pull_of (h : r.Numbered) (hp : p ∈ r.pulls) (hn : p.number = n) :
    r.pull n = some p := by
  rw [← hn, h.pull hp]

theorem Numbered.setPull (h : r.Numbered) (p : Pull) : (r.setPull p).Numbered := by
  have hsame : (r.setPull p).pulls.map Pull.number = r.pulls.map Pull.number := by
    simp only [Repository.setPull, List.map_map]
    refine List.map_congr_left fun q _ => ?_
    simp only [Function.comp_apply]
    split
    next hnumber => exact hnumber.symm
    next => rfl
  rw [Numbered, hsame]
  exact h

theorem le_foldl_max {l : List Nat} (h : n ∈ l ∨ n ≤ m) : n ≤ l.foldl max m := by
  induction l generalizing m with
  | nil => simpa using h
  | cons x l ih =>
      rw [List.foldl_cons]
      apply ih
      rcases h with hmem | hle
      · rcases List.mem_cons.mp hmem with rfl | hmem
        · exact .inr (le_max_right ..)
        · exact .inl hmem
      · exact .inr (le_trans hle (le_max_left ..))

theorem createPull_eq_some (h : r.createPull b = some x) :
    (∀ p ∈ r.pulls, p.branch = b → p.merged ≠ none) ∧
      x.1 = { r with pulls := r.pulls ++ [x.2] } ∧ x.2.branch = b ∧ x.2.merged = none ∧
      (∀ p ∈ r.pulls, p.number < x.2.number) ∧ 1 ≤ x.2.number := by
  unfold createPull at h
  split at h
  · cases h
  next hopen =>
    cases h
    simp only [Bool.or_eq_true, not_or, List.any_eq_true, Bool.and_eq_true, decide_eq_true_eq,
      not_exists, not_and] at hopen
    refine ⟨fun p hp hb hmerged => hopen.2 p hp hb (by simp [hmerged]), rfl, rfl, rfl, fun p hp => ?_,
      Nat.le_add_left ..⟩
    exact Nat.lt_succ_of_le (le_foldl_max (.inl (List.mem_map_of_mem hp)))

theorem later_createPull (h : r.createPull b = some x) :
    r.Later x.1 := by
  rw [(createPull_eq_some h).2.1]
  exact .of_same rfl rfl fun p hp => List.mem_append_left _ hp

theorem Numbered.createPull (hr : r.Numbered) (h : r.createPull b = some x) : x.1.Numbered := by
  obtain ⟨-, hx, -, -, hnumber, -⟩ := createPull_eq_some h
  rw [hx, Numbered, List.map_append, List.nodup_append]
  refine ⟨hr, by simp, fun n hn m hm => ?_⟩
  obtain ⟨p, hp, rfl⟩ := List.mem_map.mp hn
  obtain rfl : m = x.2.number := by simpa using hm
  exact Nat.ne_of_lt (hnumber p hp)

theorem createFile_eq_some {path : String} {content : Content} {previous : Option Content}
    (h : r.createFile b path content previous sha = some r') :
    r.head b = none ∧ r.main.lookup path = previous ∧ r.commit sha = none ∧
      r' = (r.addCommit ⟨sha, r.main.set path content, r.main⟩).setBranch b sha := by
  unfold createFile at h
  split at h
  · cases h
  next hfree =>
    cases h
    simp only [Bool.or_eq_true, not_or, decide_eq_true_eq, not_not, Bool.not_eq_true,
      Option.isSome_eq_false_iff, Option.isNone_iff_eq_none] at hfree
    exact ⟨hfree.1.1, hfree.1.2, hfree.2, rfl⟩

theorem merge_eq_some
    (h : r.merge n head sha = some r') :
    ∃ p g c, r.pull n = some p ∧ r.head p.branch = some g ∧ r.commit g = some c ∧ p.merged = none ∧
      p.approved = true ∧ (∀ x, head = some x → x = g) ∧ r.commit sha = none ∧
      r' = ({ r with main := r.mergedTree c, mainRevision := sha }.addCommit
        ⟨sha, r.mergedTree c, r.main⟩).setPull { p with merged := some (g, sha) } := by
  simp only [merge, Option.bind_eq_bind, Option.bind_eq_some_iff] at h
  obtain ⟨p, hp, g, hg, c, hc, h⟩ := h
  split at h
  · cases h
  next hfree =>
    cases h
    simp only [Bool.or_eq_true, not_or, Bool.not_eq_true, Option.isSome_eq_false_iff,
      Option.isNone_iff_eq_none] at hfree
    obtain ⟨⟨⟨hmerged, happroved⟩, hhead⟩, hsha⟩ := hfree
    refine ⟨p, g, c, hp, hg, hc, hmerged, by simpa using happroved, fun x hx => ?_, hsha, rfl⟩
    subst hx
    simpa using hhead

theorem review_eq_some (h : r.review n = some r') :
    ∃ p, r.pull n = some p ∧ r' = r.setPull { p with approved := true } := by
  obtain ⟨p, hp, rfl⟩ := Option.map_eq_some_iff.mp h
  exact ⟨p, hp, rfl⟩

end Repository

inductive Repository.Step (r : Repository) (sha : String) : Ask → Repository → Prop where
  | same (q : Ask) : Repository.Step r sha q r
  | createFile {f : NewFile} {r' : Repository} :
      r.createFile f.branch f.path f.content f.previous sha = some r' →
      Repository.Step r sha (.createFile f) r'
  | createPull {b : String} {x : Repository × Pull} :
      r.createPull b = some x → Repository.Step r sha (.createPull b) x.1
  | review {n : Nat} {commit : Option String} {r' : Repository} :
      r.review n = some r' → Repository.Step r sha (.review n commit) r'
  | merge {n : Nat} {head : Option String} {r' : Repository} :
      r.merge n head sha = some r' → Repository.Step r sha (.merge n head) r'

namespace Repository

variable {r r' : Repository}

theorem Numbered.later_setPull (h : r.Numbered) {q : Pull} (hp : p ∈ r.pulls)
    (hnumber : q.number = p.number) (hbranch : q.branch = p.branch)
    (hmerged : ∀ m, p.merged = some m → q.merged = some m) : r.Later (r.setPull q) :=
  Repository.later_setPull fun x hx hxq => by
    rw [h.eq hx hp (hxq.trans hnumber)]
    exact ⟨hbranch.symm, hmerged⟩

theorem Numbered.later_review (h : r.Numbered) (hreview : r.review n = some r') :
    r.Later r' ∧ r'.Numbered := by
  obtain ⟨p, hp, rfl⟩ := review_eq_some hreview
  exact ⟨h.later_setPull (pull_eq_some hp).1 rfl rfl (fun _ hm => hm), h.setPull _⟩

theorem Numbered.later_merge (h : r.Numbered)
    (hmerge : r.merge n head sha = some r') : r.Later r' ∧ r'.Numbered := by
  obtain ⟨p, g, c, hp, -, -, hopen, -, -, -, rfl⟩ := merge_eq_some hmerge
  have hmain : r.Later { r with main := r.mergedTree c, mainRevision := sha } :=
    .of_same rfl rfl fun _ hq => hq
  have hfirst := hmain.trans (later_addCommit ⟨sha, r.mergedTree c, r.main⟩)
  have hnumbered : ({ r with main := r.mergedTree c, mainRevision := sha }.addCommit
      ⟨sha, r.mergedTree c, r.main⟩).Numbered := by
    rw [Numbered, addCommit_pulls]
    exact h
  refine ⟨hfirst.trans (hnumbered.later_setPull (p := p) ?_ rfl rfl (by simp [hopen])),
    hnumbered.setPull _⟩
  rw [addCommit_pulls]
  exact (pull_eq_some hp).1

theorem Numbered.later_push (h : r.Numbered) (b : String) (c : Commit) :
    r.Later (r.push b c) ∧ (r.push b c).Numbered := by
  refine ⟨(later_addCommit c).trans (later_setBranch b c.sha), ?_⟩
  rw [Numbered, push, setBranch_pulls, addCommit_pulls]
  exact h

/-- No request takes anything away. -/
theorem Step.later {q : Ask} (h : r.Step sha q r') (hr : r.Numbered) :
    r.Later r' ∧ r'.Numbered := by
  cases h with
  | same => exact ⟨.refl r, hr⟩
  | createFile hcreate =>
      obtain ⟨-, -, -, rfl⟩ := createFile_eq_some hcreate
      exact hr.later_push _ ⟨_, _, _⟩
  | createPull hcreate => exact ⟨later_createPull hcreate, hr.createPull hcreate⟩
  | review hreview => exact hr.later_review hreview
  | merge hmerge => exact hr.later_merge hmerge

end Repository

/-! ## Heads of pull requests -/

namespace Repository

variable {r r' : Repository}

theorem mem_setPull_self {q : Pull} (hp : p ∈ r.pulls) (hnumber : q.number = p.number) :
    q ∈ (r.setPull q).pulls :=
  List.mem_map.mpr ⟨p, hp, if_pos hnumber.symm⟩

def HeadAt (r : Repository) (n : Nat) (branch h : String) : Prop :=
  ∃ p, r.pull n = some p ∧ p.branch = branch ∧ r.headOf p = some h

theorem HeadAt.review (hhead : r.HeadAt n b h) (hr : r.Numbered)
    (hreview : r.review m = some r') : r'.HeadAt n b h := by
  obtain ⟨p, hp, hb, hh⟩ := hhead
  obtain ⟨q, hq, rfl⟩ := review_eq_some hreview
  have hn := hr.setPull { q with approved := true }
  by_cases hsame : q.number = p.number
  · obtain rfl := hr.eq (pull_eq_some hq).1 (pull_eq_some hp).1 hsame
    have hmem : ({ q with approved := true } : Pull) ∈ (r.setPull { q with approved := true }).pulls :=
      mem_setPull_self (pull_eq_some hq).1 rfl
    exact ⟨_, hn.pull_of hmem (pull_eq_some hp).2, hb, hh⟩
  · have hmem : p ∈ (r.setPull { q with approved := true }).pulls :=
      List.mem_map.mpr ⟨p, (pull_eq_some hp).1, if_neg fun heq => hsame heq.symm⟩
    exact ⟨p, hn.pull_of hmem (pull_eq_some hp).2, hb, hh⟩

theorem HeadAt.merge (hhead : r.HeadAt n b h)
    (hr : r.Numbered) (hmerge : r.merge m head sha = some r') : r'.HeadAt n b h := by
  have hnumbered := (hr.later_merge hmerge).2
  obtain ⟨p, hp, hb, hh⟩ := hhead
  obtain ⟨q, g, c, hq, hg, -, hopen, -, -, -, rfl⟩ := merge_eq_some hmerge
  have hheads : ∀ b, ({ r with main := r.mergedTree c, mainRevision := sha }.addCommit
      ⟨sha, r.mergedTree c, r.main⟩).head b = r.head b := fun b => by simp [Repository.head]
  by_cases hsame : q.number = p.number
  · obtain rfl := hr.eq (pull_eq_some hq).1 (pull_eq_some hp).1 hsame
    have hmem := mem_setPull_self (r := { r with main := r.mergedTree c, mainRevision := sha }.addCommit
        ⟨sha, r.mergedTree c, r.main⟩) (p := q) (q := { q with merged := some (g, sha) })
      (by rw [addCommit_pulls]; exact (pull_eq_some hq).1) rfl
    refine ⟨_, hnumbered.pull_of hmem (pull_eq_some hp).2, hb, ?_⟩
    rw [headOf, hopen] at hh
    exact hg.symm.trans hh
  · refine ⟨p, hnumbered.pull_of ?_ (pull_eq_some hp).2, hb, ?_⟩
    · refine List.mem_map.mpr ⟨p, ?_, if_neg fun heq => hsame heq.symm⟩
      rw [addCommit_pulls]
      exact (pull_eq_some hp).1
    · simp only [headOf] at hh ⊢
      cases hmerged : p.merged with
      | some x => simpa [hmerged] using hh
      | none =>
          rw [hmerged] at hh
          exact (hheads p.branch).trans hh

/-- A commit on another branch leaves the head of a pull request where it is. -/
theorem HeadAt.push {c : Commit} (hhead : r.HeadAt n b h)
    (hother : ∀ p, r.pull n = some p → p.merged = none → p.branch ≠ b') :
    (r.push b' c).HeadAt n b h := by
  obtain ⟨p, hp, hb, hh⟩ := hhead
  refine ⟨p, ?_, hb, ?_⟩
  · rw [pull, Repository.push, setBranch_pulls, addCommit_pulls]
    exact hp
  simp only [headOf] at hh ⊢
  cases hmerged : p.merged with
  | some x => simpa [hmerged] using hh
  | none =>
      rw [hmerged] at hh
      have hsame : (r.push b' c).head p.branch = r.head p.branch := by
        rw [Repository.push, head_setBranch, if_neg (hother p hp hmerged)]
        simp [head]
      exact hsame.trans hh

theorem HeadAt.createPull
    (hhead : r.HeadAt n b h) (hcreate : r.createPull b' = some x) : x.1.HeadAt n b h := by
  obtain ⟨p, hp, hb, hh⟩ := hhead
  obtain ⟨-, hx, -⟩ := createPull_eq_some hcreate
  refine ⟨p, ?_, hb, ?_⟩
  · rw [hx, pull, List.find?_append, show r.pulls.find? (fun p => p.number = n) = some p from hp]
    rfl
  · rw [hx]
    exact hh

theorem Step.headAt {q : Ask} (hstep : r.Step sha q r') (hr : r.Numbered)
    (hhead : r.HeadAt n b h) : r'.HeadAt n b h := by
  cases hstep with
  | same => exact hhead
  | createFile hcreate =>
      obtain ⟨hfree, -, -, rfl⟩ := createFile_eq_some hcreate
      obtain ⟨p, hp, hb, hh⟩ := hhead
      refine HeadAt.push ⟨p, hp, hb, hh⟩ fun p' hp' hmerged hbranch => ?_
      rw [hp] at hp'
      obtain rfl := Option.some.inj hp'
      rw [headOf, hmerged, hbranch, hfree] at hh
      cases hh
  | createPull hcreate => exact hhead.createPull hcreate
  | review hreview => exact hhead.review hr hreview
  | merge hmerge => exact hhead.merge hr hmerge

end Repository

/-- The pull requests of a branch are open. -/
def Repository.Unmerged (r : Repository) (b : String) : Prop :=
  ∀ p ∈ r.pulls, p.branch = b → p.merged = none

namespace Repository

variable {r r' : Repository} {b : String}

theorem Unmerged.of_pulls (h : r.Unmerged b) (hpulls : r'.pulls = r.pulls) : r'.Unmerged b := by
  rw [Unmerged, hpulls]
  exact h

theorem Unmerged.setPull (h : r.Unmerged b) (hp : p.branch = b → p.merged = none) :
    (r.setPull p).Unmerged b := by
  intro q hq hbranch
  rcases mem_setPull hq with rfl | hold
  · exact hp hbranch
  · exact h q hold hbranch

theorem Unmerged.createPull (h : r.Unmerged b)
    (hcreate : r.createPull b' = some x) : x.1.Unmerged b := by
  obtain ⟨-, hx, -, hmerged, -⟩ := createPull_eq_some hcreate
  rw [hx]
  intro p hp hbranch
  rcases List.mem_append.mp hp with hold | hnew
  · exact h p hold hbranch
  · rw [List.mem_singleton.mp hnew, hmerged]

theorem Unmerged.review (h : r.Unmerged b) (hreview : r.review n = some r') :
    r'.Unmerged b := by
  obtain ⟨p, hp, rfl⟩ := review_eq_some hreview
  exact h.setPull fun hbranch => h p (pull_eq_some hp).1 hbranch

theorem Unmerged.merge (h : r.Unmerged b)
    (hmerge : r.merge n head sha = some r') (hother : ∀ p, r.pull n = some p → p.branch ≠ b) :
    r'.Unmerged b := by
  obtain ⟨p, g, c, hp, -, -, -, -, -, -, rfl⟩ := merge_eq_some hmerge
  refine Unmerged.setPull ?_ fun hbranch => absurd hbranch (hother p hp)
  exact h.of_pulls (addCommit_pulls _)

theorem Step.unmerged {q : Ask} (h : r.Step sha q r')
    (hq : ∀ n head, q ≠ .merge n head) (hr : r.Unmerged b) : r'.Unmerged b := by
  cases h with
  | same => exact hr
  | createFile hcreate =>
      obtain ⟨-, -, -, rfl⟩ := createFile_eq_some hcreate
      exact hr.of_pulls (addCommit_pulls _)
  | createPull hcreate => exact hr.createPull hcreate
  | review hreview => exact hr.review hreview
  | merge => exact absurd rfl (hq _ _)

end Repository

/-! ## The world -/

structure World.Later (w w' : World) : Prop where
  db : w.db.Later w'.db
  repo : w.repo.Later w'.repo

theorem World.Later.refl (w : World) : w.Later w := ⟨.refl w.db, .refl w.repo⟩

theorem World.Later.trans {w w' w'' : World} (h : w.Later w') (h' : w'.Later w'') : w.Later w'' :=
  ⟨h.db.trans h'.db, h.repo.trans h'.repo⟩

section

variable {D : Digest} {cfg : Config} {e : Env} {q : Ask} {w : World}

/-- A transaction leaves the database as it is, or commits. -/
theorem World.commit_cases (w : World) (f : SqlError → Failure)
    (x : Except SqlError (Authority.Db × α)) :
    (w.commit f x).2 = w ∨ ∃ db a, x = .ok (db, a) ∧ w.commit f x = (.ok a, { w with db }) := by
  match x with
  | .ok (db, a) => exact .inr ⟨db, a, rfl, rfl⟩
  | .error e => exact .inl rfl

theorem World.write_cases (w : World) (status : Nat) (x : Option (Repository × α)) :
    (w.write status x).2 = w ∨ ∃ r a, x = some (r, a) ∧ w.write status x = (.ok a, { w with repo := r }) := by
  match x with
  | some (r, a) => exact .inr ⟨r, a, rfl, rfl⟩
  | none => exact .inl rfl

theorem storeAccept_exec {s : Statement} {c : FrontDoor.AcceptCall} {db db' : Authority.Db}
    {v : Authority.Accepted} (h : storeAccept D s c db = .ok (db', v)) :
    ∃ x : Authority.Call, x.exec D s db = .ok db' ∧ x.label = .accept := by
  unfold storeAccept at h
  split at h
  · exact ⟨.acceptGiteaModule (some (boundInput c)), by simp [Authority.Call.exec, h], rfl⟩
  · split at h
    · exact ⟨.acceptDevelopmentModuleInstall c.args, by simp [Authority.Call.exec, h], rfl⟩
    · exact ⟨.acceptOperation c.args, by simp [Authority.Call.exec, h], rfl⟩

theorem serviceApprove_exec {rt : FrontDoor.Runtime} {s : Statement} {session : FrontDoor.Session}
    {i : FrontDoor.DecisionInput} {db db' : Authority.Db} {v : Option Authority.Accepted}
    (h : serviceApprove D rt s session i db = .ok (db', v)) :
    ∃ x : Authority.Call, x.exec D s db = .ok db' ∧ x.label = .approve := by
  obtain ⟨call, -, h⟩ := bind_eq_ok.mp h
  have hdatabase : ∀ {x : Except SqlError (Authority.Db × Option Authority.Accepted)},
      FrontDoor.fromDatabase x = .ok (db', v) → x = .ok (db', v) := by
    intro x hx
    cases x with
    | ok y => simpa [FrontDoor.fromDatabase] using hx
    | error f => cases hx
  split at h
  · exact ⟨.approveDevelopmentModuleInstall call.args,
      by simp [Authority.Call.exec, hdatabase h], rfl⟩
  · exact ⟨.approveOperation call.args, by simp [Authority.Call.exec, hdatabase h], rfl⟩

theorem reply_db (D : Digest) (cfg : Config) (e : Env) (q : Ask) (w : World) :
    (reply D cfg e q w).2.db = w.db ∨
      ∃ x : Authority.Call, x.exec D e.statement w.db = .ok (reply D cfg e q w).2.db := by
  cases q with
  | accept c =>
      rcases w.commit_cases databaseFailure (storeAccept D e.statement c w.db) with hsame | ⟨db, v, hx, hw⟩
      · exact .inl (congrArg World.db hsame)
      · obtain ⟨x, hexec, -⟩ := storeAccept_exec hx
        exact .inr ⟨x, by rw [reply, hw]; exact hexec⟩
  | approve session i =>
      simp only [reply]
      split
      next db v hx => exact .inr ((serviceApprove_exec hx).imp fun _ h => h.1)
      next db hx => exact .inr ((serviceApprove_exec hx).imp fun _ h => h.1)
      next => exact .inl rfl
  | recordProposal p =>
      rcases w.commit_cases databaseFailure (Authority.recordGiteaProposal D e.statement p w.db) with
        hsame | ⟨db, v, hx, hw⟩
      · exact .inl (congrArg World.db hsame)
      · exact .inr ⟨.recordGiteaProposal p, by rw [reply, hw]; simp [Authority.Call.exec, hx]⟩
  | recordMerge p =>
      rcases w.commit_cases databaseFailure (Authority.recordGiteaMerge D e.statement p w.db) with
        hsame | ⟨db, v, hx, hw⟩
      · exact .inl (congrArg World.db hsame)
      · exact .inr ⟨.recordGiteaMerge p, by rw [reply, hw]; simp [Authority.Call.exec, hx]⟩
  | get session id | getForApproval session actor id => left; simp only [reply]; split <;> rfl
  | createFile f =>
      left
      simp only [reply]
      rcases w.write_cases 422 _ with hsame | ⟨r, a, -, hw⟩
      · rw [hsame]
      · rw [hw]
  | createPull b =>
      left
      simp only [reply]
      rcases w.write_cases 409 _ with hsame | ⟨r, a, -, hw⟩
      · rw [hsame]
      · rw [hw]
  | review n c =>
      left
      simp only [reply]
      rcases w.write_cases 404 _ with hsame | ⟨r, a, -, hw⟩
      · rw [hsame]
      · rw [hw]
  | merge n h =>
      left
      simp only [reply]
      rcases w.write_cases 405 _ with hsame | ⟨r, a, -, hw⟩
      · rw [hsame]
      · rw [hw]
  | _ => exact .inl rfl

theorem World.write_map {β : Type} {w : World} {status : Nat} {x : Option α} {f : α → Repository × β}
    {P : Repository → Prop} (hsame : P w.repo) (hsome : ∀ a, x = some a → P (f a).1) :
    P (w.write status (x.map f)).2.repo := by
  cases x with
  | none => exact hsame
  | some a => exact hsome a rfl

theorem reply_repo (D : Digest) (cfg : Config) (e : Env) (q : Ask) (w : World) :
    w.repo.Step e.sha q (reply D cfg e q w).2.repo := by
  have hcommit : ∀ {α : Type} (f : SqlError → Failure) (x : Except SqlError (Authority.Db × α)),
      (w.commit f x).2.repo = w.repo := by
    intro α f x
    rcases w.commit_cases f x with hsame | ⟨db, a, -, hw⟩
    · rw [hsame]
    · rw [hw]
  cases q with
  | accept c | recordProposal p | recordMerge p => rw [reply, hcommit]; exact .same _
  | approve session i | get session id | getForApproval session actor id =>
      simp only [reply]; split <;> exact .same _
  | createFile f => exact World.write_map (.same _) fun _ h => .createFile h
  | createPull b => exact World.write_map (.same _) fun _ h => .createPull h
  | review n c => exact World.write_map (.same _) fun _ h => .review h
  | merge n h => exact World.write_map (.same _) fun _ h => .merge h
  | _ => exact .same _

theorem answer_cases (D : Digest) (cfg : Config) (e : Env) (q : Ask) (w : World) :
    (answer D cfg e q w).2 = w ∨ (answer D cfg e q w).2 = (reply D cfg e q w).2 := by
  unfold answer
  split
  · exact .inr rfl
  · exact .inl rfl
  · exact .inr rfl

theorem answer_eq_ok {x : Answer q} (h : (answer D cfg e q w).1 = .ok x) :
    answer D cfg e q w = reply D cfg e q w := by
  unfold answer at h ⊢
  split at h
  next => rfl
  next => cases h
  next => cases h

/-- Nothing that is asked takes anything away. -/
theorem answer_later (D : Digest) (cfg : Config) (e : Env) (q : Ask) (hw : w.repo.Numbered) :
    w.Later (answer D cfg e q w).2 ∧ (answer D cfg e q w).2.repo.Numbered := by
  rcases answer_cases D cfg e q w with hsame | hreply
  · rw [hsame]
    exact ⟨.refl w, hw⟩
  · obtain ⟨hrepo, hnumbered⟩ := (reply_repo D cfg e q w).later hw
    rw [hreply]
    refine ⟨⟨?_, hrepo⟩, hnumbered⟩
    rcases reply_db D cfg e q w with hdb | ⟨x, hexec⟩
    · rw [hdb]
      exact .refl _
    · exact (Authority.exec_commits hexec).later

/-- Nothing that happens besides takes anything away. -/
theorem Other.later (x : Other) (hw : w.repo.Numbered) :
    w.Later (x.change D w) ∧ (x.change D w).repo.Numbered := by
  cases x with
  | database a => exact ⟨⟨Authority.perform_later D a w.db, .refl _⟩, hw⟩
  | push b c =>
      obtain ⟨hlater, hnumbered⟩ := hw.later_push b c
      exact ⟨⟨.refl _, hlater⟩, hnumbered⟩
  | openPull b =>
      simp only [Other.change]
      cases hcreate : w.repo.createPull b with
      | none => exact ⟨.refl w, hw⟩
      | some x => exact ⟨⟨.refl _, Repository.later_createPull hcreate⟩, hw.createPull hcreate⟩
  | review n =>
      simp only [Other.change]
      cases hreview : w.repo.review n with
      | none => exact ⟨.refl w, hw⟩
      | some r => exact ⟨⟨.refl _, (hw.later_review hreview).1⟩, (hw.later_review hreview).2⟩
  | merge n h sha =>
      simp only [Other.change]
      cases hmerge : w.repo.merge n h sha with
      | none => exact ⟨.refl w, hw⟩
      | some r => exact ⟨⟨.refl _, (hw.later_merge hmerge).1⟩, (hw.later_merge hmerge).2⟩

/-! ## Programs -/

section

variable {τ : Type} {C : System.Contract τ Env Ask World} {t : τ}

theorem watched_ask {post : Answer q → World → Prop}
    (h : ∀ u, C.valid u → C.rely q w u → C.needs t q u ∧ ∀ e, C.allowed t e q u → ∀ x,
      (reply D cfg e q u).1 = .ok x → post x (reply D cfg e q u).2) :
    System.Watched (answer D cfg) C t post (await q) w := by
  refine System.watched_await fun u hvalid hrely => ?_
  obtain ⟨hneeds, hpost⟩ := h u hvalid hrely
  refine ⟨hneeds, fun e hallowed x hx => ?_⟩
  have hreply := answer_eq_ok hx
  rw [hreply] at hx ⊢
  exact hpost e hallowed x hx

theorem watched_read {f : Answer q → Prog α} {post : α → World → Prop}
    (hC : C.Kept (answer D cfg)) (hq : ∀ u, C.needs t q u)
    (hf : ∀ x u, C.later w u → System.Watched (answer D cfg) C t post (f x) u) :
    System.Watched (answer D cfg) C t post (await q >>= f) w :=
  System.Watched.seq hC ((System.Program.keeps_await hq).watched w) hf

theorem watched_compute {β : Type} {x : Except Failure α} {f : α → Prog β} {post : β → World → Prop}
    (hf : ∀ y, x = .ok y → System.Watched (answer D cfg) C t post (f y) w) :
    System.Watched (answer D cfg) C t post (lift x >>= f) w := by
  cases x with
  | error e => exact System.watched_throw
  | ok y => exact hf y rfl

end

end

end PlatformChange
