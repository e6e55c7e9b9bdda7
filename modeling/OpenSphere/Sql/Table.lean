import Mathlib.Data.List.Forall2
import OpenSphere.Sql.Logic

/-!
# Statements and tables

A stored function runs in one transaction: it raises, and then nothing of it
happened, or it commits all of its statements.  So a function of the database
is a function into `Except SqlError`, and the database after a failed call is
the database before it.

A `Table` carries its constraints.  Its rows all pass the CHECK constraints of
the schema and no two of them clash on a primary key or a UNIQUE constraint.
`insert` and `updateWhere` raise instead of breaking either, so a constraint
holds of every row of every table without any further argument.
-/

namespace Sql

variable {α β ε : Type} {e : SqlError} {d : String}

/-! ## Errors -/

inductive SqlError where
  /-- `RAISE EXCEPTION message USING ERRCODE, DETAIL`. -/
  | raised (message errcode detail : String)
  /-- A NULL for a NOT NULL column. -/
  | notNull (column : String)
  /-- A CHECK constraint of the table. -/
  | check (table : String)
  /-- A primary key or UNIQUE constraint of the table. -/
  | unique (table : String)
  /-- Text that does not denote a value of the type it is cast to. -/
  | cast (type : String)
deriving DecidableEq, Repr

def SqlError.detail : SqlError → Option String
  | .raised _ _ d => some d
  | _ => none

/-! ## Statements -/

/-- `IF c THEN RAISE ...; END IF;` -/
def raiseIf (c : Cond) (e : SqlError) : Except SqlError Unit :=
  if c = some true then .error e else .ok ()

/-- The value of a lookup, or the exception raised when it found nothing. -/
def orRaise {α : Type} (x : Option α) (e : SqlError) : Except SqlError α :=
  match x with
  | some a => .ok a
  | none => .error e

def notNull {α : Type} (x : Option α) (column : String) : Except SqlError α :=
  orRaise x (.notNull column)

@[simp] theorem raiseIf_eq_ok {c : Cond} {u : Unit} :
    raiseIf c e = .ok u ↔ c ≠ some true := by
  unfold raiseIf
  split <;> simp_all

@[simp] theorem orRaise_eq_ok {x : Option α} {a : α} :
    orRaise x e = .ok a ↔ x = some a := by
  cases x <;> simp [orRaise]

@[simp] theorem notNull_eq_ok {x : Option α} {c : String} {a : α} :
    notNull x c = .ok a ↔ x = some a := orRaise_eq_ok

/-- A sequence of statements commits exactly when each of them does. -/
theorem bind_eq_ok {x : Except ε α} {f : α → Except ε β} {b : β} :
    x >>= f = .ok b ↔ ∃ a, x = .ok a ∧ f a = .ok b := by
  cases x <;> simp [bind, Except.bind]

theorem isOk_iff {x : Except ε α} : x.isOk = true ↔ ∃ a, x = .ok a := by
  cases x <;> simp [Except.isOk, Except.toBool]

theorem bind_of_ok {x : Except ε α} {f : α → Except ε β} {a : α} (h : x = .ok a) :
    x >>= f = f a := by
  rw [h]
  rfl

/-- The state a call commits, without what it returns. -/
theorem fst_map_eq_ok {x : Except ε (α × β)} {a : α} :
    (·.1) <$> x = .ok a ↔ ∃ b, x = .ok (a, b) := by
  constructor
  · intro h
    cases x with
    | error e => cases h
    | ok v =>
        cases h
        exact ⟨v.2, rfl⟩
  · rintro ⟨b, rfl⟩
    rfl

@[simp] theorem pure_eq_ok {a b : α} :
    (pure a : Except ε α) = .ok b ↔ a = b := by
  simp [pure, Except.pure]

def raised {α : Type} : Except SqlError α → Option String
  | .error e => e.detail
  | .ok _ => none

/-- A sequence of statements fails with the first DETAIL one of them raises. -/
theorem raised_bind {x : Except SqlError α} {f : α → Except SqlError β} :
    raised (x >>= f) = some d ↔ raised x = some d ∨ ∃ a, x = .ok a ∧ raised (f a) = some d := by
  cases x <;> simp [bind, Except.bind, raised]

@[simp] theorem raised_map (f : α → β) (x : Except SqlError α) :
    raised (f <$> x) = raised x := by
  cases x <;> rfl

@[simp] theorem raised_raiseIf {c : Cond} :
    raised (raiseIf c e) = some d ↔ c = some true ∧ e.detail = some d := by
  unfold raiseIf
  split <;> simp_all [raised]

@[simp] theorem raised_orRaise {x : Option α} :
    raised (orRaise x e) = some d ↔ x = none ∧ e.detail = some d := by
  cases x <;> simp [orRaise, raised]

@[simp] theorem raised_notNull (x : Option α) (c : String) :
    raised (notNull x c) = none := by
  cases x <;> rfl

/-- A passed guard made of a chain of `OR`: no member was true. -/
theorem any_ne_true {cs : List Cond} (h : Cond.any cs ≠ some true) :
    ∀ c ∈ cs, c ≠ some true := by
  intro c hc htrue
  exact h ((Cond.any_eq_true cs).mpr ⟨c, hc, htrue⟩)

/-! ## Tables -/

structure Schema (ρ κ : Type) where
  /-- The name of the table, for its errors. -/
  name : String
  /-- The primary key. -/
  key : ρ → κ
  /-- The CHECK constraints of one row. -/
  check : ρ → Bool
  /-- Whether two rows clash on a UNIQUE constraint other than the primary key. -/
  clash : ρ → ρ → Bool

section Tables

variable {ρ κ : Type} [DecidableEq κ]

/-- Whether two rows cannot both stand in the table. -/
def Schema.conflict (S : Schema ρ κ) (a b : ρ) : Bool :=
  decide (S.key a = S.key b) || S.clash a b

/-- The rows of a table, in the order of insertion, with its constraints. -/
structure Table (S : Schema ρ κ) where
  /-- The rows. -/
  rows : List ρ
  /-- Every row passes the CHECK constraints. -/
  checked : ∀ r ∈ rows, S.check r = true
  /-- No two rows clash. -/
  keyed : rows.Pairwise fun a b => S.conflict a b = false

variable {S : Schema ρ κ} {t t' : Table S} {p : ρ → Bool} {f : ρ → ρ} {r : ρ}

/-- Tables are compared by their rows. -/
instance [DecidableEq ρ] : DecidableEq (Table S) := fun t t' =>
  decidable_of_iff (t.rows = t'.rows)
    ⟨fun h => by cases t; cases h; rfl, congrArg Table.rows⟩

def Table.empty : Table S := ⟨[], by simp, List.Pairwise.nil⟩

def Table.ofRows (rows : List ρ) : Except SqlError (Table S) :=
  if hc : ∀ r ∈ rows, S.check r = true then
    if hk : rows.Pairwise fun a b => S.conflict a b = false then .ok ⟨rows, hc, hk⟩
    else .error (.unique S.name)
  else .error (.check S.name)

/-- `SELECT * INTO ... WHERE key = k`, which finds nothing for a NULL. -/
def Table.lookup (t : Table S) (k : Option κ) : Option ρ :=
  k.bind fun k => t.rows.find? fun r => decide (S.key r = k)

/-- `INSERT INTO ... VALUES (r)`. -/
def Table.insert (t : Table S) (r : ρ) : Except SqlError (Table S) :=
  if hc : S.check r = true then
    if hk : ∀ x ∈ t.rows, S.conflict x r = false then
      .ok ⟨t.rows ++ [r],
        fun x hx => (List.mem_append.mp hx).elim (t.checked x) fun h => by simp_all,
        List.pairwise_append.mpr ⟨t.keyed, List.pairwise_singleton .., by simpa using hk⟩⟩
    else .error (.unique S.name)
  else .error (.check S.name)

/-- `UPDATE ... SET ... WHERE p`, with `f` the assignment. -/
def Table.updateWhere (t : Table S) (p : ρ → Bool) (f : ρ → ρ) : Except SqlError (Table S) :=
  Table.ofRows (t.rows.map fun x => if p x then f x else x)

/-- `UPDATE ... WHERE key = r.key`, with `r` the row afterwards. -/
def Table.put (t : Table S) (r : ρ) : Except SqlError (Table S) :=
  t.updateWhere (fun x => decide (S.key x = S.key r)) fun _ => r

theorem Table.ofRows_rows {rows : List ρ} (h : Table.ofRows rows = .ok t) : t.rows = rows := by
  unfold Table.ofRows at h
  split at h
  · split at h
    · cases h; rfl
    · cases h
  · cases h

theorem Table.insert_rows (h : t.insert r = .ok t') :
    t'.rows = t.rows ++ [r] := by
  unfold Table.insert at h
  split at h
  · split at h
    · cases h; rfl
    · cases h
  · cases h

theorem Table.ofRows_insert (h : t.insert r = .ok t') :
    Table.ofRows (t.rows ++ [r]) = .ok t' := by
  rw [← Table.insert_rows h, Table.ofRows, dif_pos t'.checked, dif_pos t'.keyed]

theorem Table.updateWhere_rows
    (h : t.updateWhere p f = .ok t') : t'.rows = t.rows.map fun x => if p x then f x else x :=
  Table.ofRows_rows h

theorem Table.put_rows (h : t.put r = .ok t') :
    t'.rows = t.rows.map fun x => if S.key x = S.key r then r else x := by
  rw [Table.updateWhere_rows h]
  simp

@[simp] theorem Table.raised_insert (t : Table S) (r : ρ) : raised (t.insert r) = none := by
  unfold Table.insert
  split
  · split <;> rfl
  · rfl

@[simp] theorem Table.raised_put (t : Table S) (r : ρ) : raised (t.put r) = none := by
  unfold Table.put Table.updateWhere Table.ofRows
  split
  · split <;> rfl
  · rfl

theorem Table.insert_checked (h : t.insert r = .ok t') :
    S.check r = true :=
  t'.checked r (by rw [Table.insert_rows h]; simp)

/-- Two rows that clash either way are the same row. -/
theorem Table.eq_of_conflict {a b : ρ} (ha : a ∈ t.rows) (hb : b ∈ t.rows)
    (hab : S.conflict a b = true) (hba : S.conflict b a = true) : a = b := by
  by_contra hne
  have hpair := t.keyed
  rw [List.pairwise_iff_getElem] at hpair
  obtain ⟨i, hi, rfl⟩ := List.getElem_of_mem ha
  obtain ⟨j, hj, rfl⟩ := List.getElem_of_mem hb
  rcases Nat.lt_trichotomy i j with hij | hij | hij
  · rw [hpair i j hi hj hij] at hab
    cases hab
  · subst hij
    exact hne rfl
  · rw [hpair j i hj hi hij] at hba
    cases hba

/-- Two rows with the same primary key are the same row. -/
theorem Table.eq_of_key_eq {a b : ρ} (ha : a ∈ t.rows) (hb : b ∈ t.rows)
    (hkey : S.key a = S.key b) : a = b :=
  Table.eq_of_conflict ha hb (by simp [Schema.conflict, hkey]) (by simp [Schema.conflict, hkey])

theorem find_eq_of_unique {rows : List ρ} (hr : r ∈ rows)
    (hp : p r = true) (hunique : ∀ x ∈ rows, p x = true → x = r) : rows.find? p = some r := by
  cases hfind : rows.find? p with
  | none => exact absurd hp (List.find?_eq_none.mp hfind r hr)
  | some x => rw [hunique x (List.mem_of_find?_eq_some hfind) (List.find?_some hfind)]

theorem Table.find_key_eq {k : κ} (hr : r ∈ t.rows) (hk : S.key r = k) :
    t.rows.find? (fun x => decide (S.key x = k)) = some r :=
  find_eq_of_unique hr (decide_eq_true hk) fun _ hx hkey =>
    Table.eq_of_key_eq hx hr ((of_decide_eq_true hkey).trans hk.symm)

theorem Table.lookup_eq_some {k : Option κ} :
    t.lookup k = some r ↔ r ∈ t.rows ∧ k = some (S.key r) := by
  unfold Table.lookup
  cases k with
  | none => simp
  | some k =>
      rw [Option.bind_some]
      constructor
      · intro hfind
        have hkey := List.find?_some hfind
        simp only [decide_eq_true_eq] at hkey
        exact ⟨List.mem_of_find?_eq_some hfind, by rw [hkey]⟩
      · rintro ⟨hmem, hk⟩
        exact Table.find_key_eq hmem (Option.some.inj hk).symm

/-- The rows of a table as rows of a table that demands less. -/
def Table.project {ρ' : Type} {S' : Schema ρ' κ} (t : Table S) (f : ρ → ρ')
    (hcheck : ∀ r, S.check r = true → S'.check (f r) = true)
    (hconflict : ∀ a b, S.conflict a b = false → S'.conflict (f a) (f b) = false) : Table S' where
  rows := t.rows.map f
  checked r hr := by
    obtain ⟨x, hx, rfl⟩ := List.mem_map.mp hr
    exact hcheck x (t.checked x hx)
  keyed := List.pairwise_map.mpr (t.keyed.imp fun {a b} h => hconflict a b h)

/-! ## What a write does to a lookup and to a selection -/

theorem Table.lookup_insert (h : t.insert r = .ok t') (k : κ) :
    t'.lookup (some k) = if k = S.key r then some r else t.lookup (some k) := by
  have hrows := Table.insert_rows h
  split
  next hk =>
    subst hk
    exact Table.lookup_eq_some.mpr ⟨by simp [hrows], rfl⟩
  next hk =>
    simp [Table.lookup, hrows, List.find?_append, Ne.symm hk]

theorem Table.lookup_insert_self (h : t.insert r = .ok t') :
    t.lookup (some (S.key r)) = none := by
  cases hlook : t.lookup (some (S.key r)) with
  | none => rfl
  | some x =>
      -- both rows would stand in the new table under one key
      obtain ⟨hmem, hkey⟩ := Table.lookup_eq_some.mp hlook
      have hpair := t'.keyed
      rw [Table.insert_rows h, List.pairwise_append] at hpair
      have hconf := hpair.2.2 x hmem r (by simp)
      have hsame : S.key x = S.key r := (Option.some.inj hkey).symm
      simp [Schema.conflict, hsame] at hconf

theorem Table.lookup_put (h : t.put r = .ok t') (k : κ) :
    t'.lookup (some k) = if k = S.key r then (t.lookup (some k)).map fun _ => r
      else t.lookup (some k) := by
  have hrows := Table.put_rows h
  cases hlook : t.lookup (some k) with
  | none =>
      have hnone : t'.lookup (some k) = none := by
        cases hlook' : t'.lookup (some k) with
        | none => rfl
        | some y =>
            obtain ⟨hmem, hkey⟩ := Table.lookup_eq_some.mp hlook'
            rw [hrows] at hmem
            obtain ⟨x, hx, rfl⟩ := List.mem_map.mp hmem
            have hxk : S.key x = k := by
              split at hkey
              next hxr => rw [hxr]; exact (Option.some.inj hkey).symm
              next => exact (Option.some.inj hkey).symm
            have : t.lookup (some k) = some x :=
              Table.lookup_eq_some.mpr ⟨hx, by rw [hxk]⟩
            rw [hlook] at this
            cases this
      simp [hnone]
  | some x =>
      obtain ⟨hmem, hkey⟩ := Table.lookup_eq_some.mp hlook
      have hxk : S.key x = k := (Option.some.inj hkey).symm
      split
      next hk =>
        refine Table.lookup_eq_some.mpr ⟨?_, by rw [hk]⟩
        rw [hrows]
        exact List.mem_map.mpr ⟨x, hmem, by rw [if_pos (hxk.trans hk)]⟩
      next hk =>
        refine Table.lookup_eq_some.mpr ⟨?_, hkey⟩
        rw [hrows]
        exact List.mem_map.mpr ⟨x, hmem, by rw [if_neg (by rw [hxk]; exact hk)]⟩

theorem Table.lookup_updateWhere
    (h : t.updateWhere p f = .ok t') (hkey : ∀ x, S.key (f x) = S.key x) (k : κ) :
    t'.lookup (some k) = (t.lookup (some k)).map fun x => if p x then f x else x := by
  have hrows := Table.updateWhere_rows h
  have hsame : ∀ x, S.key (if p x then f x else x) = S.key x := by
    intro x
    split
    · exact hkey x
    · rfl
  simp only [Table.lookup, Option.bind_some, hrows, List.find?_map]
  congr 2
  funext x
  simp [hsame x]

theorem Table.updateWhere_none
    (h : t.updateWhere p f = .ok t') (hnone : ∀ x ∈ t.rows, p x = false) : t' = t := by
  have hrows : t'.rows = t.rows := by
    rw [Table.updateWhere_rows h]
    exact (List.map_congr_left fun x hx => by simp [hnone x hx]).trans (List.map_id _)
  cases t
  cases t'
  cases hrows
  rfl

/-- A selection that fixes the primary key selects one row or none. -/
theorem Table.filter_key {k : κ} (hkey : ∀ x ∈ t.rows, p x = true → S.key x = k) :
    t.rows.filter p = [] ∨ ∃ x ∈ t.rows, p x = true ∧ t.rows.filter p = [x] := by
  have hpair := t.keyed.sublist (List.filter_sublist (p := p))
  cases hfilter : t.rows.filter p with
  | nil => exact .inl rfl
  | cons x xs =>
      have hmem : ∀ y ∈ x :: xs, y ∈ t.rows ∧ p y = true := fun y hy =>
        List.mem_filter.mp (hfilter ▸ hy)
      obtain ⟨hx, hpx⟩ := hmem x (List.mem_cons_self ..)
      refine .inr ⟨x, hx, hpx, ?_⟩
      cases xs with
      | nil => rfl
      | cons y ys =>
          -- two rows of one key would clash
          obtain ⟨hy, hpy⟩ := hmem y (List.mem_cons_of_mem _ (List.mem_cons_self ..))
          rw [hfilter] at hpair
          have hclash := List.rel_of_pairwise_cons hpair (List.mem_cons_self ..)
          simp [Schema.conflict, hkey x hx hpx, hkey y hy hpy] at hclash

theorem Table.updateWhere_forall₂ (h : t.updateWhere p f = .ok t') :
    List.Forall₂ (fun x y => x ∈ t.rows ∧ y = if p x then f x else x) t.rows t'.rows := by
  rw [Table.updateWhere_rows h, List.forall₂_map_right_iff]
  exact List.forall₂_same.mpr fun x hx => ⟨hx, rfl⟩

/-- A row of the second list has one of the first beside it. -/
theorem exists_of_forall₂ {R : ρ → ρ → Prop} {rows rows' : List ρ} (h : List.Forall₂ R rows rows')
    {y : ρ} (hy : y ∈ rows') : ∃ x ∈ rows, R x y := by
  induction h with
  | nil => cases hy
  | @cons x _ rows rows' hR _ ih =>
      rcases List.mem_cons.mp hy with rfl | hy
      · exact ⟨x, List.mem_cons_self .., hR⟩
      · obtain ⟨z, hz, hzy⟩ := ih hy
        exact ⟨z, List.mem_cons_of_mem _ hz, hzy⟩

/-- A selection does not grow when every row it takes comes from one it took. -/
theorem length_filter_le {R : ρ → ρ → Prop} {q : ρ → Bool} {rows rows' : List ρ}
    (h : List.Forall₂ R rows rows') (hpq : ∀ x y, R x y → q y = true → p x = true) :
    (rows'.filter q).length ≤ (rows.filter p).length := by
  induction h with
  | nil => exact Nat.le_refl _
  | @cons x y rows rows' hR _ ih =>
      simp only [List.filter_cons]
      by_cases hq : q y = true
      · rw [if_pos hq, if_pos (hpq x y hR hq)]
        exact Nat.succ_le_succ ih
      · rw [if_neg hq]
        split
        · exact Nat.le_succ_of_le ih
        · exact ih

/-- Rows related one by one, with their keys kept, are related when looked up. -/
theorem Table.lookup_forall₂ {R : ρ → ρ → Prop}
    (h : List.Forall₂ R t.rows t'.rows) (hkey : ∀ x y, R x y → S.key y = S.key x) (k : κ) :
    Option.Rel R (t.lookup (some k)) (t'.lookup (some k)) := by
  simp only [Table.lookup, Option.bind_some]
  generalize t.rows = rows, t'.rows = rows' at h
  induction h with
  | nil => exact .none
  | @cons x y rows rows' hR _ ih =>
      by_cases hx : S.key x = k
      · have hy : S.key y = k := (hkey x y hR).trans hx
        simp only [List.find?_cons, hx, hy, decide_true]
        exact .some hR
      · have hy : S.key y ≠ k := fun hy => hx ((hkey x y hR).symm.trans hy)
        simp only [List.find?_cons, hx, hy, decide_false]
        exact ih

/-- An update that keeps the conflicts of the rows succeeds exactly when the updated rows
pass the CHECK constraints. -/
theorem Table.updateWhere_isOk (hconflict : ∀ x ∈ t.rows, ∀ y ∈ t.rows,
      S.conflict (if p x then f x else x) (if p y then f y else y) = S.conflict x y) :
    (∃ t', t.updateWhere p f = .ok t') ↔ ∀ x ∈ t.rows, p x = true → S.check (f x) = true := by
  constructor
  · rintro ⟨t', h⟩ x hx hp
    refine t'.checked (f x) ?_
    rw [Table.updateWhere_rows h]
    exact List.mem_map.mpr ⟨x, hx, if_pos hp⟩
  · intro hcheck
    have hrows : ∀ r ∈ t.rows.map fun x => if p x then f x else x, S.check r = true := by
      intro r hr
      obtain ⟨x, hx, rfl⟩ := List.mem_map.mp hr
      split
      next hp => exact hcheck x hx hp
      next => exact t.checked x hx
    have hkeyed : (t.rows.map fun x => if p x then f x else x).Pairwise fun a b =>
        S.conflict a b = false := by
      refine List.pairwise_map.mpr (t.keyed.imp_of_mem fun {a b} ha hb hab => ?_)
      rw [hconflict a ha b hb, hab]
    exact ⟨_, (dif_pos hrows).trans (dif_pos hkeyed)⟩

/-- An update that keeps the keys of a table without other constraints commits exactly when
its rows meet the CHECK constraints. -/
theorem Table.updateWhere_commits
    (hkey : ∀ x, S.key (f x) = S.key x) (hclash : ∀ x y, S.clash x y = false) :
    (∃ t', t.updateWhere p f = .ok t') ↔ ∀ x ∈ t.rows, p x = true → S.check (f x) = true := by
  have hsame : ∀ x, S.key (if p x then f x else x) = S.key x := by
    intro x
    split
    · exact hkey x
    · rfl
  exact Table.updateWhere_isOk fun x _ y _ => by simp only [Schema.conflict, hsame, hclash]

/-- A row can be replaced by one with the same key that clashes with the same rows, if it
passes the CHECK constraints. -/
theorem Table.put_isOk {old : ρ} (hold : old ∈ t.rows) (hkey : S.key r = S.key old)
    (hclash : ∀ x, S.clash x r = S.clash x old ∧ S.clash r x = S.clash old x)
    (hself : S.clash r r = S.clash old old) :
    (∃ t', t.put r = .ok t') ↔ S.check r = true := by
  have hother : ∀ x ∈ t.rows, S.key x = S.key r → x = old := fun x hx hxr =>
    Table.eq_of_key_eq hx hold (hxr.trans hkey)
  have hconflict : ∀ x ∈ t.rows, ∀ y ∈ t.rows,
      S.conflict (if decide (S.key x = S.key r) then r else x)
        (if decide (S.key y = S.key r) then r else y) = S.conflict x y := by
    intro x hx y hy
    simp only [decide_eq_true_eq, Schema.conflict]
    split
    next hxr =>
      obtain rfl := hother x hx hxr
      split
      next hyr =>
        obtain rfl := hother y hy hyr
        simp [hself]
      next => simp [hkey, (hclash y).2]
    next =>
      split
      next hyr =>
        obtain rfl := hother y hy hyr
        simp [hkey, (hclash x).1]
      next => rfl
  rw [Table.put, Table.updateWhere_isOk hconflict]
  constructor
  · exact fun h => h old hold (decide_eq_true hkey.symm)
  · exact fun h _ _ _ => h

theorem Table.filter_insert (h : t.insert r = .ok t') (p : ρ → Bool) :
    t'.rows.filter p = t.rows.filter p ++ if p r then [r] else [] := by
  rw [Table.insert_rows h, List.filter_append]
  congr 1
  by_cases hp : p r <;> simp [hp]

/-- A row replaced by one the selection treats alike is replaced in it. -/
theorem Table.filter_put {old : ρ} (h : t.put r = .ok t')
    (hold : t.lookup (some (S.key r)) = some old) (hp : p old = p r) :
    t'.rows.filter p = (t.rows.filter p).map fun x => if S.key x = S.key r then r else x := by
  obtain ⟨hmem, hkey⟩ := Table.lookup_eq_some.mp hold
  have hsame : ∀ x ∈ t.rows, p (if S.key x = S.key r then r else x) = p x := by
    intro x hx
    split
    next hxr =>
      have : x = old := Table.eq_of_key_eq hx hmem (hxr.trans (Option.some.inj hkey))
      rw [this, hp]
    next => rfl
  rw [Table.put_rows h, List.filter_map]
  congr 1
  exact List.filter_congr fun x hx => hsame x hx

/-- A row outside a selection leaves it alone. -/
theorem Table.filter_put_of_not {old : ρ} (h : t.put r = .ok t')
    (hold : t.lookup (some (S.key r)) = some old) (hp : p old = p r)
    (hout : p r = false) : t'.rows.filter p = t.rows.filter p := by
  rw [Table.filter_put h hold hp]
  have hid : ∀ x ∈ t.rows.filter p, (if S.key x = S.key r then r else x) = x := by
    intro x hx
    obtain ⟨hx, hpx⟩ := List.mem_filter.mp hx
    obtain ⟨hmem, hkey⟩ := Table.lookup_eq_some.mp hold
    split
    next hxr =>
      have : x = old := Table.eq_of_key_eq hx hmem (hxr.trans (Option.some.inj hkey))
      rw [this, hp, hout] at hpx
      cases hpx
    next => rfl
  exact List.map_congr_left hid |>.trans (List.map_id _)

end Tables

end Sql
