import OpenSphere.Sql.Jsonb

/-!
# The repository of declarations

What the Console uses of Gitea: the default branch, change branches, the commits they are at, and pull
requests.  A commit has the files it is made of and those of the commit where its branch left the
default branch, so that what it changes is known.  Others may push whatever they want to a change
branch; only a pull request with an approving review is merged, and a merge that names a head is
refused at any other.
-/

open Sql

namespace PlatformChange

/-- A file: a JSON document, or anything else. -/
inductive Content where
  | json (x : Jsonb)
  | other (t : String)
deriving DecidableEq

abbrev Tree := List (String × Content)

def Tree.set (t : Tree) (path : String) (x : Content) : Tree :=
  (path, x) :: t.filter fun f => !decide (f.1 = path)

structure Commit where
  sha : String
  tree : Tree
  /-- The files where its branch left the default branch. -/
  base : Tree

inductive FileStatus where
  | added
  | modified
  | removed
deriving DecidableEq

def Commit.status (c : Commit) (f : String × Content) : Option (String × FileStatus) :=
  match c.base.lookup f.1 with
  | none => some (f.1, .added)
  | some x => if f.2 = x then none else some (f.1, .modified)

def Commit.changes (c : Commit) : List (String × FileStatus) :=
  c.tree.filterMap c.status ++
    c.base.filterMap fun f => if (c.tree.lookup f.1).isNone then some (f.1, .removed) else none

/-- A pull request from a change branch to the default branch. -/
structure Pull where
  number : Nat
  branch : String
  approved : Bool
  /-- The head that was merged, and the revision of the merge. -/
  merged : Option (String × String)
deriving DecidableEq

structure Repository where
  main : Tree
  mainRevision : String
  commits : List Commit
  /-- The branches and the revisions they are at. -/
  branches : List (String × String)
  pulls : List Pull

namespace Repository

variable (r : Repository)

def commit (sha : String) : Option Commit := r.commits.find? fun c => c.sha = sha

def head (branch : String) : Option String := r.branches.lookup branch

def pull (number : Nat) : Option Pull := r.pulls.find? fun p => p.number = number

/-- The head of a pull request: that of its branch until it is merged. -/
def headOf (p : Pull) : Option String :=
  match p.merged with
  | some m => some m.1
  | none => r.head p.branch

def pullOf (branch : String) : Option Pull := r.pulls.find? fun p => p.branch = branch

def setPull (p : Pull) : Repository :=
  { r with pulls := r.pulls.map fun q => if q.number = p.number then p else q }

def setBranch (branch sha : String) : Repository :=
  { r with branches := (branch, sha) :: r.branches.filter fun b => !decide (b.1 = branch) }

def addCommit (c : Commit) : Repository :=
  if (r.commit c.sha).isSome then r else { r with commits := c :: r.commits }

/-- A commit on a new branch: the default branch with a file, which it must have as given. -/
def createFile (branch path : String) (content : Content) (previous : Option Content)
    (sha : String) : Option Repository :=
  if (r.head branch).isSome || decide (r.main.lookup path ≠ previous) || (r.commit sha).isSome then none
  else some ((r.addCommit ⟨sha, r.main.set path content, r.main⟩).setBranch branch sha)

def createPull (branch : String) : Option (Repository × Pull) :=
  if (r.head branch).isNone || r.pulls.any fun p => decide (p.branch = branch) && p.merged.isNone then none
  else
    let p : Pull := ⟨(r.pulls.map Pull.number).foldl max 0 + 1, branch, false, none⟩
    some ({ r with pulls := r.pulls ++ [p] }, p)

def review (number : Nat) : Option Repository :=
  (r.pull number).map fun p => r.setPull { p with approved := true }

def mergedTree (c : Commit) : Tree :=
  c.tree.filter (fun f => (c.status f).isSome) ++
    r.main.filter fun f => !(c.changes.any fun g => g.1 = f.1)

def merge (number : Nat) (headCommit : Option String) (sha : String) : Option Repository := do
  let p ← r.pull number
  let h ← r.head p.branch
  let c ← r.commit h
  if p.merged.isSome || !p.approved || headCommit.any (fun g => g ≠ h) || (r.commit sha).isSome then none
  else
    let tree := r.mergedTree c
    some (({ r with main := tree, mainRevision := sha }.addCommit ⟨sha, tree, r.main⟩).setPull
      { p with merged := some (h, sha) })

def push (branch : String) (c : Commit) : Repository := (r.addCommit c).setBranch branch c.sha

end Repository

end PlatformChange
