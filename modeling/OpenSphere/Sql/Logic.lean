import Mathlib.Algebra.Group.Int.Defs
import Mathlib.Algebra.GroupWithZero.Nat
import Mathlib.Data.List.Basic

/-!
# Three-valued logic

An SQL condition is true, false or NULL.  A comparison with a NULL operand is
NULL, `OR` is true as soon as one side is, and `IF` takes its branch only on
true.  So a chain of rejecting comparisons `a <> x OR b <> y OR ...` lets a row
through when the compared values are equal *or* when one of them is NULL.
`Cond.any_eq_true` and the `_eq_true` lemmas of the comparisons below say exactly that,
and every proof about a guard goes through them.

A nullable operand is an `Option`.  A column that is `NOT NULL` is a plain
value and is compared as `some` of it.
-/

namespace Sql

/-- An SQL truth value.  `none` is NULL. -/
abbrev Cond := Option Bool

namespace Cond

/-- `NOT c`. -/
def not (c : Cond) : Cond := c.map (!·)

/-- `a AND b`: false wins over NULL. -/
def and : Cond → Cond → Cond
  | some false, _ => some false
  | _, some false => some false
  | some true, some true => some true
  | _, _ => none

/-- `a OR b`: true wins over NULL. -/
def or : Cond → Cond → Cond
  | some true, _ => some true
  | _, some true => some true
  | some false, some false => some false
  | _, _ => none

/-- `c₁ OR c₂ OR ...`, associated to the right. -/
def any (cs : List Cond) : Cond := cs.foldr or (some false)

/-- `c₁ AND c₂ AND ...`, associated to the right. -/
def all (cs : List Cond) : Cond := cs.foldr and (some true)

@[simp] theorem or_eq_true (a b : Cond) :
    a.or b = some true ↔ a = some true ∨ b = some true := by
  rcases a with _ | _ | _ <;> rcases b with _ | _ | _ <;> simp [or]

@[simp] theorem and_eq_true (a b : Cond) :
    a.and b = some true ↔ a = some true ∧ b = some true := by
  rcases a with _ | _ | _ <;> rcases b with _ | _ | _ <;> simp [and]

@[simp] theorem and_eq_false (a b : Cond) :
    a.and b = some false ↔ a = some false ∨ b = some false := by
  rcases a with _ | _ | _ <;> rcases b with _ | _ | _ <;> simp [and]

@[simp] theorem or_eq_false (a b : Cond) :
    a.or b = some false ↔ a = some false ∧ b = some false := by
  rcases a with _ | _ | _ <;> rcases b with _ | _ | _ <;> simp [or]

@[simp] theorem not_eq_true (a : Cond) : a.not = some true ↔ a = some false := by
  rcases a with _ | _ | _ <;> simp [not]

/-- A chain of `OR` is true exactly when one of its members is. -/
theorem any_eq_true (cs : List Cond) : any cs = some true ↔ ∃ c ∈ cs, c = some true := by
  induction cs with
  | nil => simp [any]
  | cons c cs ih =>
      have hstep : any (c :: cs) = c.or (any cs) := rfl
      rw [hstep, or_eq_true, ih]
      simp only [List.mem_cons, exists_eq_or_imp]

/-- A chain of `AND` is true exactly when all its members are. -/
theorem all_eq_true (cs : List Cond) : all cs = some true ↔ ∀ c ∈ cs, c = some true := by
  induction cs with
  | nil => simp [all]
  | cons c cs ih =>
      have hstep : all (c :: cs) = c.and (all cs) := rfl
      rw [hstep, and_eq_true, ih]
      simp

end Cond

/-! ## Comparisons -/

variable {α : Type}

/-- `x = y`. -/
def eq [DecidableEq α] (x y : Option α) : Cond :=
  match x, y with
  | some a, some b => some (decide (a = b))
  | _, _ => none

/-- `x <> y`. -/
def ne [DecidableEq α] (x y : Option α) : Cond :=
  match x, y with
  | some a, some b => some (decide (a ≠ b))
  | _, _ => none

/-- `x <= y`. -/
def le [LE α] [DecidableLE α] (x y : Option α) : Cond :=
  match x, y with
  | some a, some b => some (decide (a ≤ b))
  | _, _ => none

/-- `x < y`. -/
def lt [LT α] [DecidableLT α] (x y : Option α) : Cond :=
  match x, y with
  | some a, some b => some (decide (a < b))
  | _, _ => none

/-- `x IS NULL`, which is never NULL itself. -/
def isNull (x : Option α) : Cond := some x.isNone

/-- `x IS NOT NULL`. -/
def isNotNull (x : Option α) : Cond := some x.isSome

/-- `x IS DISTINCT FROM y`: NULL is a value like any other. -/
def distinct [DecidableEq α] (x y : Option α) : Cond := some (decide (x ≠ y))

/-- `x IN (a₁, ...)` for a list without NULL. -/
def isIn [DecidableEq α] (x : Option α) (l : List α) : Cond := x.map fun a => decide (a ∈ l)

/-- `x NOT IN (a₁, ...)` for a list without NULL. -/
def notIn [DecidableEq α] (x : Option α) (l : List α) : Cond := x.map fun a => decide (a ∉ l)

/-- `x ~ pattern` and every other predicate that is NULL on NULL. -/
def holds (p : α → Bool) (x : Option α) : Cond := x.map p

/-- `x !~ pattern`. -/
def fails (p : α → Bool) (x : Option α) : Cond := x.map fun a => !p a

/-- `x NOT BETWEEN lo AND hi`. -/
def notBetween (x : Option Int) (lo hi : Int) : Cond := x.map fun a => decide (a < lo ∨ hi < a)

def coalesce (x : Option α) (d : α) : α := x.getD d

/-! ## When a comparison is true

The negations are what a passed guard gives: not true is equal or NULL. -/

@[simp] theorem eq_eq_true [DecidableEq α] (x y : Option α) :
    eq x y = some true ↔ ∃ a, x = some a ∧ y = some a := by
  cases x <;> cases y <;> simp [eq, eq_comm]

@[simp] theorem eq_eq_false [DecidableEq α] (x y : Option α) :
    eq x y = some false ↔ ∃ a b, x = some a ∧ y = some b ∧ a ≠ b := by
  cases x <;> cases y <;> simp [eq]

@[simp] theorem ne_eq_true [DecidableEq α] (x y : Option α) :
    ne x y = some true ↔ ∃ a b, x = some a ∧ y = some b ∧ a ≠ b := by
  cases x <;> cases y <;> simp [ne]

@[simp] theorem le_eq_true [LE α] [DecidableLE α] (x y : Option α) :
    le x y = some true ↔ ∃ a b, x = some a ∧ y = some b ∧ a ≤ b := by
  cases x <;> cases y <;> simp [le]

@[simp] theorem lt_eq_true [LT α] [DecidableLT α] (x y : Option α) :
    lt x y = some true ↔ ∃ a b, x = some a ∧ y = some b ∧ a < b := by
  cases x <;> cases y <;> simp [lt]

@[simp] theorem isNull_eq_true (x : Option α) : isNull x = some true ↔ x = none := by
  cases x <;> simp [isNull]

@[simp] theorem isNotNull_eq_true (x : Option α) : isNotNull x = some true ↔ x ≠ none := by
  cases x <;> simp [isNotNull]

@[simp] theorem distinct_eq_true [DecidableEq α] (x y : Option α) :
    distinct x y = some true ↔ x ≠ y := by
  simp [distinct]

@[simp] theorem isIn_eq_true [DecidableEq α] (x : Option α) (l : List α) :
    isIn x l = some true ↔ ∃ a, x = some a ∧ a ∈ l := by
  cases x <;> simp [isIn]

@[simp] theorem notIn_eq_true [DecidableEq α] (x : Option α) (l : List α) :
    notIn x l = some true ↔ ∃ a, x = some a ∧ a ∉ l := by
  cases x <;> simp [notIn]

@[simp] theorem fails_eq_true (p : α → Bool) (x : Option α) :
    fails p x = some true ↔ ∃ a, x = some a ∧ p a = false := by
  cases x <;> simp [fails]

@[simp] theorem notBetween_eq_true (x : Option Int) (lo hi : Int) :
    notBetween x lo hi = some true ↔ ∃ a, x = some a ∧ (a < lo ∨ hi < a) := by
  cases x <;> simp [notBetween]

/-! ## What a passed rejection says -/

/-- A value is not distinct from itself. -/
theorem ne_self_passed [DecidableEq α] (x : Option α) : ne x x ≠ some true := by
  rw [Ne, ne_eq_true]
  rintro ⟨a, b, ha, hb, hne⟩
  exact hne (Option.some.inj (ha.symm.trans hb))

/-- `x <> y` did not reject: the values are equal or one is NULL. -/
theorem ne_passed [DecidableEq α] {x y : Option α} (h : ne x y ≠ some true) {a b : α}
    (hx : x = some a) (hy : y = some b) : a = b := by
  by_contra hne
  exact h ((ne_eq_true x y).mpr ⟨a, b, hx, hy, hne⟩)

theorem ne_passed_of_set [DecidableEq α] {x : Option α} {b : α}
    (h : ne x (some b) ≠ some true) (hx : x ≠ none) : x = some b := by
  obtain ⟨a, rfl⟩ := Option.ne_none_iff_exists'.mp hx
  rw [ne_passed h rfl rfl]

/-- A comparison that is let through where both sides are set. -/
theorem compared [DecidableEq α] {x y : Option α} (h : ne x y ≠ some true)
    (hx : x ≠ none) (hy : y ≠ none) : ∃ a, x = some a ∧ y = some a := by
  obtain ⟨b, rfl⟩ := Option.ne_none_iff_exists'.mp hy
  exact ⟨b, ne_passed_of_set h hx, rfl⟩

/-- `x NOT IN (...)` did not reject a value. -/
theorem notIn_passed [DecidableEq α] {a : α} {l : List α} (h : notIn (some a) l ≠ some true) :
    a ∈ l := by
  by_contra hmem
  exact h ((notIn_eq_true _ l).mpr ⟨a, rfl, hmem⟩)

/-- A decided condition did not reject. -/
theorem decided_passed {b : Bool} (h : (some b : Cond) ≠ some true) : b = false := by
  cases b
  · rfl
  · exact absurd rfl h

/-- `x IS NOT NULL` did not reject. -/
theorem isNotNull_passed {x : Option α} (h : isNotNull x ≠ some true) : x = none := by
  simpa using h

/-- `x IS NULL` did not reject. -/
theorem isNull_passed {x : Option α} (h : isNull x ≠ some true) : x ≠ none := by
  simpa using h

end Sql
