import OpenSphere.Properties.Proposals

/-!
# What is merged

`approve` merges the pull request of an operation and records the merge.  With a declaration binding it
compares the files and the declaration at the recorded revision before, and the merge names that
revision; without one it looks at nothing, takes the branch as it is, and merges whatever its head is.
The two reads of the head on the bound path are no snapshot either.

`merged_as_approved` is about every run in which these gaps stay closed: where `approve` records a
merge, the pull request is merged at a commit that changes exactly the file that was approved.
-/

open Sql
open System (Contract Watched Along Happens watched_await watched_lift watched_pure)
open Authority (Statement Digest Operation GiteaArgs)

namespace PlatformChange

variable {n : Nat} {o : Operation} {reason : String} {plan : ApprovalPlan} {view : PullView}

/-! ## What is approved -/

def ApprovalPlan.file (p : ApprovalPlan) (o : Operation) : String × Content :=
  if o.declarationBinding.isNone && decide (p.plan.templateId = some argocdVerificationTemplateId) then
    (argocdVerificationPath, .json argocdVerificationDeclaration)
  else (declarationPath p.plan.consumerId o.operationId, .json (p.declaration o.operationId o.reason).manifest)

def Commit.carries (c : Commit) (f : String × Content) : Bool :=
  decide (c.changes.map Prod.fst = [f.1]) && decide (c.tree.lookup f.1 = some f.2)

/-- The head of a pull request carries a file. -/
def Repository.shows (r : Repository) (n : Nat) (f : String × Content) : Bool :=
  (r.pull n).all fun p => ((r.headOf p).bind r.commit).any fun c => c.carries f

/-- A pull request is merged at a commit that carries a file. -/
structure Repository.MergedWith (r : Repository) (n : Nat) (branch revision : String)
    (f : String × Content) : Prop where
  merged : ∃ p ∈ r.pulls, p.number = n ∧ p.branch = branch ∧ ∃ h c, p.merged = some (h, revision) ∧
    r.commit h = some c ∧ c.carries f = true

theorem Repository.MergedWith.later {r r' : Repository} {branch revision : String}
    {f : String × Content} (h : r.MergedWith n branch revision f) (hlater : r.Later r') :
    r'.MergedWith n branch revision f := by
  obtain ⟨p, hp, hn, hb, head, c, hm, hc, hcarries⟩ := h.merged
  obtain ⟨p', hp', hn', hb', hm'⟩ := hlater.pulls p hp
  exact ⟨p', hp', hn'.trans hn, hb'.trans hb, head, c, hm' _ hm, hlater.commits head c hc, hcarries⟩

theorem approvalPlan_later {cfg : Config} {o' : Operation} (h : o.Later o') :
    approvalPlan cfg o' = approvalPlan cfg o := by
  have hbinding : o'.declarationBinding = o.declarationBinding :=
    congrArg (·.declarationBinding) h.request
  have hplan : o'.executionPlan = o.executionPlan := congrArg (·.executionPlan) h.request
  have hcreated : o'.createdAt = o.createdAt := congrArg (·.createdAt) h.request
  simp only [approvalPlan, hbinding, hplan, hcreated]

theorem ApprovalPlan.file_later {p : ApprovalPlan} {o' : Operation} (h : o.Later o') :
    p.file o' = p.file o := by
  have hid : o'.operationId = o.operationId := congrArg (·.operationId) h.request
  have hbinding : o'.declarationBinding = o.declarationBinding :=
    congrArg (·.declarationBinding) h.request
  have hreason : o'.reason = o.reason := congrArg (·.reason) h.request
  simp only [ApprovalPlan.file, hid, hbinding, hreason]

/-- What is recorded of an operation: its pull request is merged with the file that was approved. -/
def Faithful (cfg : Config) (g : GiteaArgs) (w : World) : Prop :=
  ∃ o ∈ w.db.operations.rows, ∃ plan n revision, approvalPlan cfg o = .ok plan ∧
    g.operationId = some o.operationId ∧ g.pullNumber = some (Int.ofNat n) ∧ g.revision = some revision ∧
    w.repo.MergedWith n (changeBranch o.operationId) revision (plan.file o)

/-! ## The gaps -/

def ApproveCall.approves (c : ApproveCall) (id : Uuid) : Bool :=
  match text (.string c.operationId) "operationId" 36 36 with
  | .ok x => decide (castUuid x = some id)
  | .error _ => false

/-- The pull request that a call reads shows what was approved, if its operation has no binding. -/
def Shown (cfg : Config) (c : ApproveCall) (n : Nat) (w : World) : Bool :=
  w.db.operations.rows.all fun o => !c.approves o.operationId || o.declarationBinding.isSome ||
    match approvalPlan cfg o with
    | .ok plan => w.repo.shows n (plan.file o)
    | .error _ => true

/-- The pull request whose head a request counts on: a read of its files, and a review and a merge that
name no revision. -/
def Ask.pins : Ask → Option Nat
  | .files n => some n
  | .review n none => some n
  | .merge n none => some n
  | _ => none

def approving (D : Digest) (cfg : Config) : Runs ApproveCall where
  program := approve cfg
  answer := answer D cfg
  change := Other.change D

def Pinned (r : Repository) (branch : String) (task : System.Task Failure Ask Answer Outcome ApproveCall) :
    Bool :=
  match task.rest with
  | .ask q _ => q.pins.any fun n => (r.pull n).any fun p => decide (p.branch = branch) && p.merged.isNone
  | _ => false

/-- A call that approves an operation without a binding finds what was approved in the pull request that
it reads; and nobody pushes to the branch of a pull request while a request counts on its head. -/
def Careful (cfg : Config) (m : System.Move ApproveCall Env Other) (s : Tasks ApproveCall) : Bool :=
  match m with
  | .step i _ =>
      match s.tasks[i]? with
      | some ⟨c, .ask (.pull n) _⟩ => Shown cfg c n s.world
      | _ => true
  | .outside (.push branch _) => !s.tasks.any (Pinned s.world.repo branch)
  | _ => true

def approvalContract (cfg : Config) : Contract ApproveCall Env Ask World where
  valid w := w.repo.Numbered
  later := World.Later
  rely q w w' := w.Later w' ∧ ∀ n, q.pins = some n → ∀ p h, w.repo.pull n = some p →
    w.repo.headOf p = some h → ∃ p', w'.repo.pull n = some p' ∧ w'.repo.headOf p' = some h
  needs _ q w := match q with
    | .recordMerge g => Faithful cfg g w
    | _ => True
  allowed c _ q w := match q with
    | .pull n => Shown cfg c n w = true
    | _ => True

section

variable {D : Digest} {cfg : Config} {c : ApproveCall} {w : World}

theorem approvalContract_kept : (approvalContract cfg).Kept (answer D cfg) where
  refl := .refl
  trans h h' := h.trans h'
  rely_refl _ w := ⟨.refl w, fun _ _ p _ hp hh => ⟨p, hp, hh⟩⟩
  rely_trans h h' := ⟨h.1.trans h'.1, fun n hq p x hp hh => by
    obtain ⟨p', hp', hh'⟩ := h.2 n hq p x hp hh
    exact h'.2 n hq p' x hp' hh'⟩
  rely_later h := h.1
  answer hvalid _ _ := (answer_later D cfg _ _ hvalid).symm

/-! ## The programs -/

def Kept (o : Operation) (w : World) : Prop := ∃ o' ∈ w.db.operations.rows, o.Later o'

theorem Kept.later {w' : World} (h : Kept o w) (hlater : w.Later w') : Kept o w' := by
  obtain ⟨o', ho', hl⟩ := h
  obtain ⟨o'', ho'', hl'⟩ := hlater.db.operation ho'
  exact ⟨o'', ho'', hl.trans hl'⟩

/-- The head that is to be merged carries the file.  Without a declaration the branch is at it. -/
structure Candidate (i : MergeInput) (f : String × Content) (h : String) (w : World) : Prop where
  carried : ∃ x, w.repo.commit h = some x ∧ x.carries f = true
  pull : ∃ p ∈ w.repo.pulls, p.number = i.pullNumber ∧ p.branch = i.branch
  named : i.declaration.isSome → h = i.expectedRevision
  head : i.declaration = none → w.repo.HeadAt i.pullNumber i.branch h

section

variable {i : MergeInput} {f : String × Content} {h : String} {w' : World}

theorem Candidate.of_repo (hc : Candidate i f h w) (hlater : w.repo.Later w'.repo)
    (hhead : i.declaration = none → w'.repo.HeadAt i.pullNumber i.branch h) : Candidate i f h w' := by
  obtain ⟨x, hx, hcarries⟩ := hc.carried
  obtain ⟨p, hp, hn, hb⟩ := hc.pull
  obtain ⟨p', hp', hn', hb', -⟩ := hlater.pulls p hp
  exact ⟨⟨x, hlater.commits h x hx, hcarries⟩, ⟨p', hp', hn'.trans hn, hb'.trans hb⟩, hc.named, hhead⟩

theorem Candidate.rely {q : Ask} (hc : Candidate i f h w) (hw : w'.repo.Numbered)
    (hrely : (approvalContract cfg).rely q w w')
    (hpins : i.declaration = none → q.pins = some i.pullNumber) : Candidate i f h w' := by
  refine hc.of_repo hrely.1.repo fun hnone => ?_
  obtain ⟨p, hp, hb, hh⟩ := hc.head hnone
  obtain ⟨p', hp', hh'⟩ := hrely.2 _ (hpins hnone) p h hp hh
  obtain ⟨hmem, hn⟩ := Repository.pull_eq_some hp
  obtain ⟨p'', hp'', hn'', hb'', -⟩ := hrely.1.repo.pulls p hmem
  obtain rfl : p'' = p' := by
    have hsame := hw.pull_of hp'' (hn''.trans hn)
    rw [hp'] at hsame
    exact (Option.some.inj hsame).symm
  exact ⟨p'', hp', hb''.trans hb, hh'⟩

end

theorem trim_consumer {t : String} (h : Js.test consumerPattern t = true) : Js.trim t = t := by
  have hwithin : consumerPattern.Within (orOneOf (fun c => lower c || digit c) ['.', '_', '-']) := by
    refine Pattern.within_seq fun r hr => ?_
    rcases List.mem_pair.mp hr with rfl | rfl
    · exact Pattern.within_repeated (fun c hc => by simp [orOneOf, hc]) _ _
    · exact Pattern.within_repeated (fun _ hc => hc) _ _
  exact Js.trim_eq_self fun c hc => Js.not_whitespace_of_name (Js.test_within hwithin h c hc)

theorem segment_consumer {t name consumer : String} (ht : Js.test consumerPattern t = true)
    (h : segment t name = .ok consumer) : consumer = t := by
  obtain ⟨normalized, hnormalized, h⟩ := bind_eq_ok.mp h
  obtain ⟨_, _, h⟩ := bind_eq_ok.mp h
  obtain rfl := pure_eq_ok.mp h
  have htext : boundedText t name 1 128 = if outside (Js.trim t) 1 128 then
      .error (fail (name ++ " must contain " ++ toString 1 ++ ".." ++ toString 128 ++ " characters"))
      else .ok (Js.trim t) := rfl
  rw [htext, trim_consumer ht] at hnormalized
  by_cases hlength : outside t 1 128 = true
  · rw [if_pos hlength] at hnormalized
    cases hnormalized
  · rw [if_neg hlength] at hnormalized
    exact (Except.ok.inj hnormalized).symm

theorem approvalPlan_consumer (h : approvalPlan cfg o = .ok plan) :
    Js.test consumerPattern plan.plan.consumerId = true := by
  unfold approvalPlan at h
  simp only at h
  split at h
  · cases h
  next x _ =>
    obtain ⟨_, hchecks, h⟩ := bind_eq_ok.mp h
    obtain ⟨_, _, h⟩ := bind_eq_ok.mp h
    obtain rfl := pure_eq_ok.mp h
    have hfields := throwIf_eq_ok.mp hchecks
    simp only [Bool.or_eq_false_iff, Bool.not_eq_false'] at hfields
    exact hfields.1.1.2

/-- A part of an approval that keeps to its contract. -/
abbrev Approves {α : Type} (D : Digest) (cfg : Config) (c : ApproveCall) (post : α → World → Prop) :
    Prog α → World → Prop := Watched (answer D cfg) (approvalContract cfg) c post

theorem requireReady_quiet :
    Approves D cfg c (fun _ _ => True) requireReady w := by
  refine watched_read approvalContract_kept (fun _ => True.intro) fun x u _ => ?_
  cases x with
  | none => exact watched_pure True.intro
  | some reason => exact System.watched_throw

theorem World.read_eq_ok {α : Type} {f : Failure} {x : Option α} {a : α} (h : (w.read f x).1 = .ok a) :
    x = some a := by
  cases x with
  | none => cases h
  | some b => exact congrArg some (Except.ok.inj h)

theorem verifyDeclaration_watched {declaration : Option Declaration} {revision : String}
    (hconsumer : ∀ d, declaration = some d → Js.test consumerPattern d.consumerId = true) :
    Approves D cfg c (fun _ u => ∀ d, declaration = some d → ∃ x,
        u.repo.commit revision = some x ∧
          x.tree.lookup (declarationPath d.consumerId d.operationId) = some (.json d.manifest))
      (verifyDeclaration declaration revision) w := by
  cases declaration with
  | none => exact watched_pure nofun
  | some d =>
      refine watched_compute fun consumer hsegment => ?_
      obtain rfl := segment_consumer (hconsumer d rfl) hsegment
      have hcontents : Approves D cfg c
          (fun actual u => ∃ x, u.repo.commit revision = some x ∧
            x.tree.lookup (declarationPath d.consumerId d.operationId) = some actual)
          (await (.contents (declarationPath d.consumerId d.operationId) revision)) w := by
        refine watched_ask (q := .contents _ revision) fun u _ _ => ?_
        refine ⟨True.intro, fun e _ actual hactual => ?_⟩
        exact Option.bind_eq_some_iff.mp (World.read_eq_ok hactual)
      refine hcontents.bind approvalContract_kept fun actual u _ hactual => ?_
      cases actual with
      | other t => exact System.watched_throw
      | json actual =>
          refine watched_lift fun _ hsame => ?_
          rintro _ ⟨⟩
          obtain rfl : actual = d.manifest := by simpa using hsame
          exact hactual

/-- The files of the head that was read are those of the declaration. -/
theorem checkDeclaration_watched {d : Declaration} {expected : String}
    (hconsumer : Js.test consumerPattern d.consumerId = true)
    (hhead : ∃ p, w.repo.pull n = some p ∧ view.head = w.repo.headOf p) :
    Approves D cfg c (fun _ u => view.head = some expected ∧ ∃ x,
        u.repo.commit expected = some x ∧
          x.carries (declarationPath d.consumerId d.operationId, .json d.manifest) = true)
      (checkDeclaration (some d) n view expected) w := by
  refine watched_compute fun _ hrevision => ?_
  have hexpected : view.head = some expected := by
    simp only [throwIf_eq_ok, Bool.or_eq_false_iff, decide_eq_false_iff_not, not_not] at hrevision
    exact hrevision.2
  have hfiles : Approves D cfg c
      (fun files u => ∃ x, u.repo.commit expected = some x ∧ files = x.changes)
      (await (.files n)) w := by
    refine watched_ask (q := .files n) fun u _ hrely => ?_
    refine ⟨True.intro, fun e _ files hfiles => ?_⟩
    obtain ⟨p, hp, hview⟩ := hhead
    obtain ⟨p', hp', hh'⟩ := hrely.2 n rfl p expected hp (hview.symm.trans hexpected)
    have hread := World.read_eq_ok hfiles
    simp only [hp', hh', Option.bind_eq_bind, Option.bind_some, Option.bind_eq_some_iff] at hread
    obtain ⟨x, hx, hfiles⟩ := hread
    exact ⟨x, hx, (Option.some.inj hfiles).symm⟩
  refine hfiles.bind approvalContract_kept fun files u _ hfiles => ?_
  obtain ⟨x, hx, rfl⟩ := hfiles
  refine watched_compute fun _ hsame => ?_
  have hchanges : x.changes = [(declarationPath d.consumerId d.operationId, .added)] := by
    simpa using hsame
  have hverify : Approves D cfg c (fun _ u => ∃ x,
      u.repo.commit expected = some x ∧
        x.tree.lookup (declarationPath d.consumerId d.operationId) = some (.json d.manifest))
      (verifyDeclaration (some d) expected) u := by
    refine (verifyDeclaration_watched fun _ hd => ?_).imp fun _ _ h => h d rfl
    rw [← Option.some.inj hd]
    exact hconsumer
  refine (hverify.kept approvalContract_kept).imp fun _ u' hdone => ⟨hexpected, ?_⟩
  obtain ⟨hlater, x', hx', hlookup⟩ := hdone
  have hsame := hlater.repo.commits expected x hx
  obtain rfl : x' = x := by
    rw [hx'] at hsame
    exact Option.some.inj hsame
  exact ⟨x', hx', by simp [Commit.carries, hchanges, hlookup]⟩

/-! ## The merge -/

section

variable {i : MergeInput} {f : String × Content} {h : String}

def MergeInput.commit (i : MergeInput) : Option String := i.declaration.map fun _ => i.expectedRevision

theorem MergeInput.pins_review (hnone : i.declaration = none) :
    (Ask.review i.pullNumber i.commit).pins = some i.pullNumber := by
  simp [commit, hnone, Ask.pins]

theorem MergeInput.pins_merge (hnone : i.declaration = none) :
    (Ask.merge i.pullNumber i.commit).pins = some i.pullNumber := by
  simp [commit, hnone, Ask.pins]

theorem Candidate.merge {r : Repository} {sha : String} (hc : Candidate i f h w)
    (hw : w.repo.Numbered) (hmerge : w.repo.merge i.pullNumber i.commit sha = some r) :
    r.MergedWith i.pullNumber i.branch sha f := by
  obtain ⟨hlater, -⟩ := hw.later_merge hmerge
  obtain ⟨p, g, y, hp, hg, -, hopen, -, hname, -, rfl⟩ := Repository.merge_eq_some hmerge
  obtain ⟨x, hx, hcarries⟩ := hc.carried
  obtain ⟨p', hp', hn, hbranch⟩ := hc.pull
  obtain rfl : p' = p := by
    rw [hw.pull_of hp' hn] at hp
    exact Option.some.inj hp
  have hhead : g = h := by
    cases hdeclaration : i.declaration with
    | some d =>
        have hcommit : i.commit = some i.expectedRevision := by simp [MergeInput.commit, hdeclaration]
        rw [hc.named (by rw [hdeclaration]; rfl)]
        exact (hname _ hcommit).symm
    | none =>
        obtain ⟨q, hq, -, hh⟩ := hc.head hdeclaration
        rw [hp] at hq
        obtain rfl := Option.some.inj hq
        rw [Repository.headOf, hopen] at hh
        exact Option.some.inj (hg.symm.trans hh)
  subst hhead
  refine ⟨⟨{ p' with merged := some (g, sha) }, Repository.mem_setPull_self (p := p') ?_ rfl,
    (Repository.pull_eq_some hp).2, hbranch, g, x, rfl, hlater.commits g x hx, hcarries⟩⟩
  rw [Repository.addCommit_pulls]
  exact (Repository.pull_eq_some hp).1

theorem review_watched (hc : Candidate i f h w) :
    Approves D cfg c (fun _ u => Candidate i f h u)
      (await (.review i.pullNumber i.commit)) w := by
  refine watched_ask fun u hu hrely => ⟨True.intro, fun e _ x hx => ?_⟩
  have hfound := hc.rely hu hrely MergeInput.pins_review
  simp only [reply] at hx ⊢
  cases hreview : u.repo.review i.pullNumber with
  | none =>
      rw [hreview] at hx
      cases hx
  | some r =>
      obtain ⟨hlater, -⟩ := hu.later_review hreview
      exact hfound.of_repo hlater fun hnone => (hfound.head hnone).review hu hreview

theorem merge_watched (hc : Candidate i f h w) :
    Approves D cfg c
      (fun _ u => ∃ revision, u.repo.MergedWith i.pullNumber i.branch revision f)
      (await (.merge i.pullNumber i.commit)) w := by
  refine watched_ask fun u hu hrely => ⟨True.intro, fun e _ x hx => ?_⟩
  have hfound := hc.rely hu hrely MergeInput.pins_merge
  simp only [reply] at hx ⊢
  cases hmerge : u.repo.merge i.pullNumber i.commit e.sha with
  | none =>
      rw [hmerge] at hx
      cases hx
  | some r =>
      exact ⟨e.sha, hfound.merge hu hmerge⟩

theorem Repository.MergedWith.revision {p : Pull} {b revision : String}
    (hmerged : w.repo.MergedWith n b revision f) (hw : w.repo.Numbered) (hp : w.repo.pull n = some p) :
    p.merged.map (·.2) = some revision := by
  obtain ⟨q, hq, hn, -, g, x, hm, -⟩ := hmerged.merged
  have hsame := hw.pull_of hq hn
  rw [hp] at hsame
  obtain rfl := Option.some.inj hsame
  rw [hm]
  rfl

/-- A pull request that is read after its merge has the revision of the merge. -/
theorem merged_watched {revision : String} (h : w.repo.MergedWith i.pullNumber i.branch revision f) :
    Approves D cfg c (fun view u => ∀ revision,
        view.mergeRevision = some revision → u.repo.MergedWith i.pullNumber i.branch revision f)
      (await (.pull i.pullNumber)) w := by
  refine watched_ask (q := .pull i.pullNumber) fun u hu hrely => ?_
  refine ⟨True.intro, fun e _ view hview => ?_⟩
  obtain ⟨p, hp, rfl⟩ := Option.map_eq_some_iff.mp (World.read_eq_ok hview)
  have hlater := h.later hrely.1.repo
  intro revision' hrevision
  have hsame := hlater.revision hu hp
  rw [← Option.some.inj (hrevision.symm.trans hsame)] at hlater
  exact hlater

/-- What is read of the pull request of an operation before it is merged. -/
structure Viewed (i : MergeInput) (f : String × Content) (view : PullView) (w : World) : Prop where
  pull : ∃ p, w.repo.pull i.pullNumber = some p ∧
    view = ⟨p.branch, w.repo.headOf p, p.merged.map (·.2)⟩
  shown : i.declaration = none → w.repo.shows i.pullNumber f = true

/-- The pull request is merged as approved, or its head is a candidate. -/
structure Checked (i : MergeInput) (f : String × Content) (view : PullView) (w : World) : Prop where
  candidate : view.mergeRevision = none → ∃ h, Candidate i f h w
  merged : ∀ revision, view.mergeRevision = some revision →
    w.repo.MergedWith i.pullNumber i.branch revision f

theorem Viewed.checked_of_none (hview : Viewed i f view w)
    (hnone : i.declaration = none) (hbranch : view.branch = i.branch) : Checked i f view w := by
  obtain ⟨p, hp, rfl⟩ := hview.pull
  obtain ⟨hmem, hn⟩ := Repository.pull_eq_some hp
  have hshown := hview.shown hnone
  rw [Repository.shows, hp, Option.all_some, Option.any_eq_true] at hshown
  obtain ⟨x, hx, hcarries⟩ := hshown
  obtain ⟨h, hh, hx⟩ := Option.bind_eq_some_iff.mp hx
  constructor
  · intro _
    exact ⟨h, ⟨x, hx, hcarries⟩, ⟨p, hmem, hn, hbranch⟩,
      fun hsome => absurd hnone (Option.isSome_iff_ne_none.mp hsome), fun _ => ⟨p, hp, hbranch, hh⟩⟩
  · intro revision hrevision
    obtain ⟨m, hm, rfl⟩ := Option.map_eq_some_iff.mp hrevision
    rw [Repository.headOf, hm] at hh
    obtain rfl := Option.some.inj hh
    exact ⟨p, hmem, hn, hbranch, m.1, x, hm, hx, hcarries⟩

theorem Viewed.checked_of_head {w' : World} (hview : Viewed i f view w)
    (hsome : i.declaration ≠ none) (hbranch : view.branch = i.branch) (hlater : w.Later w')
    (hhead : view.head = some i.expectedRevision)
    (hcommit : ∃ x, w'.repo.commit i.expectedRevision = some x ∧ x.carries f = true) :
    Checked i f view w' := by
  obtain ⟨p, hp, rfl⟩ := hview.pull
  obtain ⟨hmem, hn⟩ := Repository.pull_eq_some hp
  obtain ⟨p', hp', hn', hb', hm'⟩ := hlater.repo.pulls p hmem
  constructor
  · intro _
    exact ⟨i.expectedRevision, hcommit, ⟨p', hp', hn'.trans hn, hb'.trans hbranch⟩, fun _ => rfl,
      fun hnone => absurd hnone hsome⟩
  · intro revision hrevision
    obtain ⟨x, hx, hcarries⟩ := hcommit
    obtain ⟨m, hm, rfl⟩ := Option.map_eq_some_iff.mp hrevision
    have hhead : p.merged.isSome → m.1 = i.expectedRevision := by
      intro _
      simpa [Repository.headOf, hm] using hhead
    refine ⟨p', hp', hn'.trans hn, hb'.trans hbranch, m.1, x, hm' m hm, ?_, hcarries⟩
    rw [hhead (by rw [hm]; rfl)]
    exact hx

theorem finish_watched (hchecked : Checked i f view w) (k : PullView → Prog String)
    (hk : ∀ view u, (∀ revision, view.mergeRevision = some revision →
        u.repo.MergedWith i.pullNumber i.branch revision f) →
      Approves D cfg c
        (fun revision u => u.repo.MergedWith i.pullNumber i.branch revision f) (k view) u) :
    Approves D cfg c
      (fun revision u => u.repo.MergedWith i.pullNumber i.branch revision f)
      (do
        let view ← match view.mergeRevision with
          | some _ => pure view
          | none => do
            await (.review i.pullNumber i.commit)
            await (.merge i.pullNumber i.commit)
            await (.pull i.pullNumber)
        k view) w := by
  cases hrevision : view.mergeRevision with
  | some revision => exact hk view w hchecked.merged
  | none =>
      obtain ⟨h, hcandidate⟩ := hchecked.candidate hrevision
      refine (review_watched hcandidate).bind approvalContract_kept fun _ u _ hreviewed => ?_
      refine (merge_watched hreviewed).bind approvalContract_kept fun _ u' _ hmerged => ?_
      obtain ⟨revision, hmerged⟩ := hmerged
      exact (merged_watched hmerged).bind approvalContract_kept fun view u'' _ hview => hk view u'' hview

/-- What is read of the pull request, if the call finds what was approved in it. -/
theorem view_watched (hplan : approvalPlan cfg o = .ok plan)
    (hdeclaration : i.declaration =
      if o.declarationBinding.isSome then some (plan.declaration o.operationId o.reason) else none)
    (hcall : c.approves o.operationId = true) (hkept : Kept o w) :
    Approves D cfg c (fun view u => Viewed i (plan.file o) view u)
      (await (.pull i.pullNumber)) w := by
  refine watched_ask (q := .pull i.pullNumber) fun u _ hrely => ?_
  refine ⟨True.intro, fun e hallowed view hview => ?_⟩
  obtain ⟨p, hp, rfl⟩ := Option.map_eq_some_iff.mp (World.read_eq_ok hview)
  refine ⟨⟨p, hp, rfl⟩, fun hnone => ?_⟩
  obtain ⟨o', ho', hlater⟩ := hkept.later hrely.1
  have hid : o'.operationId = o.operationId := congrArg (·.operationId) hlater.request
  have hbinding : o'.declarationBinding = o.declarationBinding :=
    congrArg (·.declarationBinding) hlater.request
  have hfree : o.declarationBinding.isSome = false := by
    cases hbound : o.declarationBinding.isSome with
    | false => rfl
    | true =>
        rw [hdeclaration, if_pos hbound] at hnone
        cases hnone
  have hshown := List.all_eq_true.mp hallowed o' ho'
  have hfile' : u.repo.shows i.pullNumber (plan.file o) = true := by
    simpa [hid, hcall, hbinding, hfree, approvalPlan_later hlater, hplan, plan.file_later hlater]
      using hshown
  exact hfile'

theorem approveAndMerge_watched
    (hplan : approvalPlan cfg o = .ok plan) (hid : i.operationId = o.operationId)
    (hdeclaration : i.declaration =
      if o.declarationBinding.isSome then some (plan.declaration o.operationId o.reason) else none)
    (hcall : c.approves o.operationId = true) (hkept : Kept o w) :
    Approves D cfg c
      (fun revision u =>
        u.repo.MergedWith i.pullNumber (changeBranch o.operationId) revision (plan.file o))
      (approveAndMerge i) w := by
  have hbound : ∀ d, i.declaration = some d →
      d = plan.declaration o.operationId o.reason ∧ o.declarationBinding.isSome = true := by
    intro d hd
    rw [hdeclaration] at hd
    split at hd
    next hsome => exact ⟨(Option.some.inj hd).symm, hsome⟩
    next => cases hd
  have hconsumer : ∀ d, i.declaration = some d → Js.test consumerPattern d.consumerId = true := by
    intro d hd
    rw [(hbound d hd).1]
    exact approvalPlan_consumer hplan
  refine requireReady_quiet.seq approvalContract_kept fun _ u hu => ?_
  refine watched_compute fun _ hbranch => watched_compute fun _ _ => watched_compute fun _ _ => ?_
  obtain hbranch : i.branch = changeBranch o.operationId := by
    rw [← hid]
    simpa using hbranch
  rw [← hbranch]
  refine (view_watched hplan hdeclaration hcall (hkept.later hu)).bind approvalContract_kept
    fun view u' _ hview => ?_
  refine watched_compute fun _ hsame => ?_
  have hsame : view.branch = i.branch := by simpa using hsame
  have hchecked : Approves D cfg c
      (fun _ u => Checked i (plan.file o) view u)
      (checkDeclaration i.declaration i.pullNumber view i.expectedRevision) u' := by
    cases hd : i.declaration with
    | none => exact watched_pure (hview.checked_of_none hd hsame)
    | some d =>
        obtain ⟨rfl, hsome⟩ := hbound d hd
        have hfile : plan.file o = (declarationPath plan.plan.consumerId o.operationId,
            .json (plan.declaration o.operationId o.reason).manifest) := by
          simp [ApprovalPlan.file, Option.isSome_iff_ne_none.mp hsome]
        obtain ⟨p, hp, hpull⟩ := hview.pull
        refine ((checkDeclaration_watched (hconsumer _ hd) ⟨p, hp, by rw [hpull]⟩).kept
          approvalContract_kept).imp fun _ v hdone => ?_
        obtain ⟨hlater, hhead, hcommit⟩ := hdone
        refine hview.checked_of_head (by simp [hd]) hsame hlater hhead ?_
        rw [hfile]
        exact hcommit
  refine hchecked.bind approvalContract_kept fun _ u'' _ hchecked => ?_
  refine finish_watched hchecked _ fun view v hmerged => ?_
  cases hrevision : view.mergeRevision with
  | none => exact System.watched_throw
  | some revision =>
      refine watched_compute fun _ _ => ?_
      refine (verifyDeclaration_watched hconsumer).bind approvalContract_kept fun _ v' hlater _ => ?_
      exact watched_pure ((hmerged revision hrevision).later hlater.repo)

end

/-! ## Approvals -/

theorem ensurePull_quiet {b sha message : String} {replayed : Bool} :
    Approves D cfg c (fun _ _ => True) (ensurePull b sha message replayed) w := by
  refine watched_read approvalContract_kept (fun _ => True.intro) fun x u _ => ?_
  cases x with
  | some n => exact watched_compute fun _ _ => watched_pure True.intro
  | none =>
      refine watched_read approvalContract_kept (fun _ => True.intro) fun n u' _ => ?_
      exact watched_compute fun _ _ => watched_pure True.intro

theorem ensureBranch_quiet {f : NewFile} {message : String} :
    Approves D cfg c (fun _ _ => True) (ensureBranch f message) w := by
  refine watched_read approvalContract_kept (fun _ => True.intro) fun x u _ => ?_
  cases x with
  | some sha => exact ensurePull_quiet
  | none =>
      exact watched_read approvalContract_kept (fun _ => True.intro) fun sha u' _ => ensurePull_quiet

theorem ensurePlanProposal_quiet {p : ApprovalPlan} {id : Uuid}
    {source : Option Content} :
    Approves D cfg c (fun _ _ => True) (ensurePlanProposal cfg p id reason source) w := by
  unfold ensurePlanProposal
  split
  · refine watched_compute fun _ _ => requireReady_quiet.seq approvalContract_kept fun _ u _ => ?_
    exact watched_compute fun _ _ => ensureBranch_quiet
  · refine requireReady_quiet.seq approvalContract_kept fun _ u _ => ?_
    refine watched_compute fun _ _ => watched_compute fun _ _ => watched_compute fun _ _ => ?_
    refine watched_compute fun _ _ => watched_compute fun _ _ => watched_compute fun _ _ => ?_
    exact ensureBranch_quiet

theorem requireOwner_quiet {p : Plan} :
    Approves D cfg c (fun _ _ => True) (requireOwner p) w := by
  have hvalidate : Approves D cfg c (fun _ _ => True) (validateModule p) w := by
    refine watched_compute fun _ _ => ?_
    refine watched_read approvalContract_kept (fun _ => True.intro) fun resolved u _ => ?_
    exact watched_compute fun _ _ => watched_pure True.intro
  refine hvalidate.seq approvalContract_kept fun _ u _ => ?_
  refine watched_read approvalContract_kept (fun _ => True.intro) fun ready u' _ => ?_
  exact watched_compute fun _ _ => watched_pure True.intro

theorem approvalAuthority_quiet {c' : ApproveCall} :
    Approves D cfg c (fun _ _ => True) (approvalAuthority cfg c' reason) w := by
  have hrest : ∀ development u, Approves D cfg c (fun _ _ => True) (do
        let now ← await .serviceClock
        let actorRef ← lift (service (FrontDoor.authorizeOperation c'.session now
          ⟨"console.operation.approve", "R2", reason, development⟩))
        let _ ← lift (service (FrontDoor.sessionAuthority c'.session))
        return actorRef : Prog Uuid) u := by
    intro development u
    refine watched_read approvalContract_kept (fun _ => True.intro) fun now u' _ => ?_
    exact watched_compute fun _ _ => watched_compute fun _ _ => watched_pure True.intro
  unfold approvalAuthority
  split
  · refine watched_read approvalContract_kept (fun _ => True.intro) fun record u _ => ?_
    refine watched_read approvalContract_kept (fun _ => True.intro) fun edge u' _ => ?_
    exact hrest _ u'
  · exact hrest false w

theorem ensureApproved_quiet {c' : ApproveCall} :
    Approves D cfg c (fun _ _ => True) (ensureApproved c' o reason) w := by
  unfold ensureApproved
  split
  · exact watched_read approvalContract_kept (fun _ => True.intro) fun v u _ => watched_pure True.intro
  · split
    · exact watched_pure True.intro
    · exact System.watched_throw

/-- The operation that is approved is the one that its identifier names. -/
theorem storeGetForApproval_found {s : Statement} {session : FrontDoor.Session} {actor : Uuid}
    {x : String} {db : Authority.Db}
    (h : storeGetForApproval s session actor x db = .ok o) :
    o ∈ db.operations.rows ∧ castUuid x = some o.operationId := by
  obtain ⟨id, hid, hget⟩ := bind_eq_ok.mp h
  simp only [getBoundOperationForApproval, bind_eq_ok, raiseIf_eq_ok, orRaise_eq_ok, pure_eq_ok] at hget
  obtain ⟨_, -, _, -, o', hlookup, _, -, _, -, _, -, rfl⟩ := hget
  rw [orRaise_eq_ok.mp hid]
  exact Table.lookup_eq_some.mp hlookup

theorem approve_watched : Approves D cfg c (fun _ _ => True) (approve cfg c) w := by
  refine System.watched_join approvalContract_kept (fun u _ => ?_) fun hrest => ?_
  · refine watched_compute fun reason _ => ?_
    refine approvalAuthority_quiet.seq approvalContract_kept fun actorRef u' _ => ?_
    refine System.watched_join approvalContract_kept (fun u _ => ?_) fun hrest => ?_
    · refine watched_compute fun id hid => ?_
      have hget : Approves D cfg c
          (fun o u => Kept o u ∧ c.approves o.operationId = true)
          (await (.getForApproval c.session actorRef id)) u := by
        refine watched_ask (q := .getForApproval c.session actorRef id) fun u' _ _ => ?_
        refine ⟨True.intro, fun e _ o ho => ?_⟩
        have hsame : (reply D cfg e (.getForApproval c.session actorRef id) u').2 = u' := by
          simp only [reply]
          split <;> rfl
        rw [hsame]
        simp only [reply] at ho
        split at ho
        next o' hfound =>
          cases ho
          obtain ⟨hmem, hcast⟩ := storeGetForApproval_found hfound
          exact ⟨⟨o, hmem, .refl o⟩, by simp [ApproveCall.approves, hid, hcast]⟩
        next => cases ho
      refine hget.bind approvalContract_kept fun o u' _ ho => ?_
      obtain ⟨hkept, hcall⟩ := ho
      refine watched_compute fun plan hplan => ?_
      refine System.watched_join approvalContract_kept (fun v hv => ?_) fun hrest => ?_
      · refine ensureApproved_quiet.seq approvalContract_kept fun replayed v₁ h₁ => ?_
        refine ensurePlanProposal_quiet.seq approvalContract_kept fun git v₂ h₂ => ?_
        refine watched_read approvalContract_kept (fun _ => True.intro) fun _ v₃ h₃ => ?_
        have hkept₃ := (((hkept.later hv).later h₁).later h₂).later h₃
        refine (approveAndMerge_watched hplan rfl rfl hcall hkept₃).bind approvalContract_kept
          fun revision v₄ h₄ hmerged => ?_
        have hrecord : Approves D cfg c (fun _ _ => True)
            (await (.recordMerge ⟨some o.operationId, some revision, some git.branch,
              some git.pullNumber, c.correlationId.toText⟩)) v₄ := by
          refine watched_ask fun v₅ _ hrely => ⟨?_, fun _ _ _ _ => True.intro⟩
          obtain ⟨o', ho', hlater⟩ := (hkept₃.later h₄).later hrely.1
          have hid : o'.operationId = o.operationId := congrArg (·.operationId) hlater.request
          refine ⟨o', ho', plan, git.pullNumber, revision, ?_, by rw [hid], rfl, rfl, ?_⟩
          · rw [approvalPlan_later hlater, hplan]
          · rw [hid, plan.file_later hlater]
            exact hmerged.later hrely.1.repo
        exact hrecord.seq approvalContract_kept fun _ _ _ => watched_pure True.intro
      · refine watched_compute fun _ _ => requireOwner_quiet.seq approvalContract_kept fun _ v hv => ?_
        exact hrest v hv
    · refine watched_read approvalContract_kept (fun _ => True.intro) fun ready v hv => ?_
      exact watched_compute fun _ _ => hrest v hv
  · refine watched_compute fun _ _ => ?_
    refine watched_read approvalContract_kept (fun _ => True.intro) fun existing u hu => ?_
    split
    · exact System.watched_throw
    · exact hrest u hu

/-! ## Runs -/

/-- A request relies on a world where the head that it counts on is kept. -/
theorem rely_of_headAt {q : Ask} {w' : World} (hlater : w.Later w')
    (hhead : ∀ n, q.pins = some n → ∀ b h, w.repo.HeadAt n b h → w'.repo.HeadAt n b h) :
    (approvalContract cfg).rely q w w' := by
  refine ⟨hlater, fun n hq p h hp hh => ?_⟩
  obtain ⟨p', hp', -, hh'⟩ := hhead n hq p.branch h ⟨p, hp, rfl, hh⟩
  exact ⟨p', hp', hh'⟩

/-- What happens in a careful run is what the waiting calls rely on. -/
theorem Careful.relied {m : System.Move ApproveCall Env Other} {s : Tasks ApproveCall}
    (hs : s.Watchful (approving D cfg) (approvalContract cfg)) (hm : Careful cfg m s = true) :
    m.Relied (approving D cfg) (approvalContract cfg) s := by
  cases m with
  | start => exact True.intro
  | crash => exact True.intro
  | step i e =>
      intro t q next hi
      constructor
      · cases q with
        | pull n =>
            have hshown : Shown cfg t n s.world = true := by simpa [Careful, hi] using hm
            exact hshown
        | _ => exact True.intro
      · intro j t' q' next' _ _
        refine rely_of_headAt (answer_later D cfg e q hs.world).1 fun n _ b h hhead => ?_
        change (answer D cfg e q s.world).2.repo.HeadAt n b h
        rcases answer_cases D cfg e q s.world with hsame | hreply
        · rw [hsame]
          exact hhead
        · rw [hreply]
          exact (reply_repo D cfg e q s.world).headAt hs.world hhead
  | outside x =>
      obtain ⟨hlater, hnumbered⟩ := x.later (D := D) hs.world
      refine ⟨hnumbered, hlater, fun j t q next _ hj => rely_of_headAt hlater fun n hq b h hhead => ?_⟩
      change (x.change D s.world).repo.HeadAt n b h
      cases x with
      | database a => exact hhead
      | push b' x =>
          refine hhead.push fun p hp hmerged hbranch => ?_
          simp only [Careful, Bool.not_eq_true', List.any_eq_false] at hm
          refine hm _ (List.mem_of_getElem? hj) ?_
          simp [Pinned, hq, hp, hbranch, hmerged]
      | openPull b' =>
          simp only [Other.change]
          cases hcreate : s.world.repo.createPull b' with
          | none => exact hhead
          | some x => exact hhead.createPull hcreate
      | review n' =>
          simp only [Other.change]
          cases hreview : s.world.repo.review n' with
          | none => exact hhead
          | some r => exact hhead.review hs.world hreview
      | merge n' head sha =>
          simp only [Other.change]
          cases hmerge : s.world.repo.merge n' head sha with
          | none => exact hhead
          | some r => exact hhead.merge hs.world hmerge

def Records (D : Digest) (cfg : Config) (start : World)
    (moves : List (System.Move ApproveCall Env Other)) (n : Nat) (g : GiteaArgs) (w : World) : Prop :=
  Happens (System.Pool.perform (approving D cfg)) ⟨start, []⟩ moves n fun m s =>
    s.world = w ∧ ∃ i e c next, m = .step i e ∧ s.tasks[i]? = some ⟨c, .ask (.recordMerge g) next⟩

/-- In a careful run a merge that is recorded is that of a commit which changes one file, the one that
the plan of the operation declares, and has it as declared. -/
theorem merged_as_approved (D : Digest) (cfg : Config) (start : World) (hstart : start.repo.Numbered)
    (moves : List (System.Move ApproveCall Env Other))
    (hmoves : Along (System.Pool.perform (approving D cfg)) (fun m s => Careful cfg m s = true) moves
      ⟨start, []⟩) {n : Nat} {g : GiteaArgs} {w : World} (h : Records D cfg start moves n g w) :
    Faithful cfg g w := by
  obtain ⟨a, s, ⟨-, hbefore⟩, rfl, i, e, c, next, rfl, hi⟩ := h
  have hfirst : (⟨start, []⟩ : Tasks ApproveCall).Watchful (approving D cfg) (approvalContract cfg) :=
    ⟨hstart, fun _ htask => absurd htask List.not_mem_nil⟩
  have hwatchful := (hfirst.run approvalContract_kept (fun _ _ _ => approve_watched)
    (fun _ _ hs hm => Careful.relied hs hm) (hmoves.between (Nat.le_refl n)).1).1
  rw [hbefore] at hwatchful
  exact hwatchful.needs approvalContract_kept (List.mem_of_getElem? hi)

end

namespace Demo

open Authority.Demo (bob digest second noon commit)

/-- `Number(x)`, for decimals. -/
def safeNumber (x : Js.Value) : Option { n : Int // 0 ≤ n ∧ n ≤ Js.maxSafeInteger } :=
  match x with
  | .number t => (castWithin 0 Js.maxSafeInteger t).bind fun n =>
      if h : 0 ≤ n ∧ n ≤ Js.maxSafeInteger then some ⟨n, h⟩ else none
  | _ => none

def approvalConfig : Config := { config with rt := { config.rt with safeInteger := safeNumber } }

def proposed : World := (upTo 13 0 0).world

def approval : ApproveCall where
  session := ⟨some ⟨7⟩, some bob, FrontDoor.instant noon + 3600000, none, true,
    ["console.operation.approve"], 3, 0, .aal2⟩
  body := .ofList [("reason", .string "looks good to me")]
  idempotencyKey := .string "approve-0001"
  correlationId := .string "approve-0001"
  operationId := Uuid.text ⟨105⟩

/-- The steps of the approval, from twenty seconds after noon. -/
def steps : List (System.Move ApproveCall Env Other) :=
  (List.range 14).map fun k => .step 0 { env (20 + k) 0 with sha := "4444444444444444444444444444444444444444" }

def alone : List (System.Move ApproveCall Env Other) := .start approval :: steps

/-- A commit that changes another file besides. -/
def tampered : Commit where
  sha := "5555555555555555555555555555555555555555"
  tree := Tree.set ((proposed.repo.commit commit).elim [] (·.tree)) "console.core/policy.json" (.other "allow")
  base := []

/-- Someone pushes it after the review of the approval, before its merge. -/
def raced : List (System.Move ApproveCall Env Other) :=
  .start approval :: steps.take 11 ++ .outside (.push (changeBranch ⟨105⟩) tampered) :: steps.drop 11

def after (n : Nat) (moves : List (System.Move ApproveCall Env Other)) : Tasks ApproveCall :=
  System.run (System.Pool.perform (approving digest approvalConfig)) (moves.take n) ⟨proposed, []⟩

def recording (s : Tasks ApproveCall) : Option GiteaArgs :=
  match s.tasks[(0 : Nat)]? with
  | some ⟨_, .ask (.recordMerge g) _⟩ => some g
  | _ => none

theorem recording_eq_some {s : Tasks ApproveCall} {g : GiteaArgs} (h : recording s = some g) :
    ∃ c next, s.tasks[0]? = some ⟨c, .ask (.recordMerge g) next⟩ := by
  unfold recording at h
  split at h
  next c g' next hi =>
    cases h
    exact ⟨c, next, hi⟩
  next => cases h

/-- A merge that a call waits to record is at a place of the run. -/
theorem records {moves : List (System.Move ApproveCall Env Other)} {e : Env} {g : GiteaArgs}
    (hstep : moves[n]? = some (.step 0 e)) (hg : recording (after n moves) = some g) :
    Records digest approvalConfig proposed moves n g (after n moves).world := by
  obtain ⟨c, next, hi⟩ := recording_eq_some hg
  exact ⟨_, _, ⟨hstep, rfl⟩, rfl, 0, e, c, next, rfl, hi⟩

/-- What Alice proposed, and what becomes of it when Bob is alone and when someone pushes. -/
theorem proposed_runs : proposed.repo.Numbered ∧
    ((recording (after 14 alone)).isSome = true ∧
      Along (System.Pool.perform (approving digest approvalConfig))
        (fun m s => Careful approvalConfig m s = true) alone ⟨proposed, []⟩) ∧
    (recording (after 15 raced)).any (fun g =>
      let w := (after 15 raced).world
      (Authority.recordGiteaMerge digest (second 33) g w.db).isOk &&
        w.repo.pulls.all fun p => p.merged.all fun m =>
          (w.repo.commit m.1).all fun c => decide (c.changes.length = 2)) = true := by
  unfold Repository.Numbered
  decide +kernel

end Demo

/-- Bob approves what Alice proposed, and what he merges is what he approved. -/
theorem scaling_merged : ∃ g w,
    Records Authority.Demo.digest Demo.approvalConfig Demo.proposed Demo.alone 14 g w ∧
      Faithful Demo.approvalConfig g w := by
  obtain ⟨hnumbered, ⟨hrecording, hcareful⟩, -⟩ := Demo.proposed_runs
  obtain ⟨g, hg⟩ := Option.isSome_iff_exists.mp hrecording
  have hrecords := Demo.records (by rfl) hg
  exact ⟨g, _, hrecords, merged_as_approved Authority.Demo.digest Demo.approvalConfig Demo.proposed
    hnumbered Demo.alone hcareful hrecords⟩

/-- Someone pushes before the merge, and what Bob merges and records changes another file besides. -/
theorem tampered_merged : ∃ g w,
    Records Authority.Demo.digest Demo.approvalConfig Demo.proposed Demo.raced 15 g w ∧
      (Authority.recordGiteaMerge Authority.Demo.digest (Authority.Demo.second 33) g w.db).isOk = true ∧
      ¬ Faithful Demo.approvalConfig g w := by
  obtain ⟨g, hg, hrun⟩ := (Option.any_eq_true _ _).mp Demo.proposed_runs.2.2
  obtain ⟨hok, htwo⟩ := Bool.and_eq_true_iff.mp hrun
  refine ⟨g, _, Demo.records (by rfl) hg, hok, ?_⟩
  rintro ⟨o, -, plan, n, revision, -, -, -, -, ⟨p, hp, -, -, head, c, hm, hc, hcarries⟩⟩
  have hlength : c.changes.length = 2 := by
    have hpull := List.all_eq_true.mp htwo p hp
    rw [hm, Option.all_some, hc, Option.all_some] at hpull
    exact of_decide_eq_true hpull
  have hone : (c.changes.map Prod.fst).length = 1 := by
    simp only [Commit.carries, Bool.and_eq_true, decide_eq_true_eq] at hcarries
    rw [hcarries.1]
    rfl
  rw [List.length_map, hlength] at hone
  cases hone

end PlatformChange
