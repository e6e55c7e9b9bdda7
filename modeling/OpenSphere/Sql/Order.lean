import Mathlib.Data.List.Pairwise
import Mathlib.Data.List.Sort
import OpenSphere.Sql.Logic

/-!
# Ordered reads and keyset pages

`ORDER BY key DESC`, `LIMIT`, and the pages a reader takes of a table by passing
the smallest key of one page as the upper bound of the next.  A page looks one
row ahead to see whether another page follows.

A table that only grows at its end can be read that way while it grows:
`follow_unread` says that the pages are the table as it was at the first read,
from the last row to the first, and that the reader comes to an end.
-/

namespace Sql

variable {ρ : Type} {key : ρ → Int} {rows : List ρ}

/-- `ORDER BY key DESC`. -/
def orderDesc (key : ρ → Int) (rows : List ρ) : List ρ :=
  rows.insertionSort fun a b => key b ≤ key a

/-- `LIMIT n`, where NULL is no limit. -/
def limited : Option Nat → List ρ → List ρ
  | none, rows => rows
  | some n, rows => rows.take n

def Ascending (key : ρ → Int) (rows : List ρ) : Prop := rows.Pairwise fun a b => key a < key b

theorem Ascending.snoc {r : ρ} (h : Ascending key rows)
    (hr : ∀ x ∈ rows, key x < key r) : Ascending key (rows ++ [r]) := by
  refine List.pairwise_append.mpr ⟨h, List.pairwise_singleton .., ?_⟩
  intro a ha b hb
  rw [List.mem_singleton.mp hb]
  exact hr a ha

theorem Ascending.append_left {more : List ρ}
    (h : Ascending key (rows ++ more)) : Ascending key rows :=
  (List.pairwise_append.mp h).1

/-- Reading a stored order backwards. -/
theorem orderDesc_eq_reverse (h : Ascending key rows) :
    orderDesc key rows = rows.reverse := by
  have hsorted : rows.reverse.Pairwise fun a b => key b ≤ key a := by
    rw [List.pairwise_reverse]
    exact h.imp fun hab => Int.le_of_lt hab
  refine List.Perm.eq_of_pairwise ?_ (List.pairwise_insertionSort _ _) hsorted
    ((List.perm_insertionSort _ _).trans rows.reverse_perm.symm)
  intro a b ha hb hab hba
  -- two rows with one key are one row
  have ha := (List.perm_insertionSort _ _).mem_iff.mp ha
  have hb := List.mem_reverse.mp hb
  by_contra hne
  have hkey : key a = key b := Int.le_antisymm hba hab
  have hdistinct : rows.Pairwise fun x y => key x ≠ key y := h.imp fun hxy => Int.ne_of_lt hxy
  have : Std.Symm fun x y : ρ => key x ≠ key y := ⟨fun _ _ => Ne.symm⟩
  exact hdistinct.forall ha hb hne hkey

theorem orderDesc_eq_self (h : rows.Pairwise fun a b => key b ≤ key a) : orderDesc key rows = rows :=
  h.insertionSort_eq

/-! ## Pages -/

/-- One page: the rows below the cursor, the largest keys first, with the cursor
of the next page when there is one.  One row more than the limit is read to see
that. -/
def keysetPage (key : ρ → Int) (cursor : Option Int) (limit : Option Nat) (rows : List ρ) :
    List ρ × Option Int :=
  let page := limited (limit.map (· + 1))
    (orderDesc key (rows.filter fun r => cursor.all fun c => decide (key r < c)))
  let visible := limited limit (orderDesc key page)
  (visible, if limit.any fun n => decide (n < page.length) then (visible.map key).min? else none)

theorem mem_of_mem_orderDesc {r : ρ} (h : r ∈ orderDesc key rows) :
    r ∈ rows :=
  (List.perm_insertionSort _ _).mem_iff.mp h

theorem mem_of_mem_limited {limit : Option Nat} {r : ρ} (h : r ∈ limited limit rows) :
    r ∈ rows := by
  cases limit with
  | none => exact h
  | some n => exact List.mem_of_mem_take h

theorem keysetPage_cursor {cursor : Option Int} {limit : Option Nat}
    {c : Int} (h : (keysetPage key cursor limit rows).2 = some c) :
    ∃ r ∈ rows, c = key r := by
  simp only [keysetPage] at h
  split at h
  · obtain ⟨r, hr, rfl⟩ := List.mem_map.mp (List.min?_mem h)
    have hpage := mem_of_mem_limited (mem_of_mem_orderDesc (mem_of_mem_limited hr))
    exact ⟨r, (List.mem_filter.mp (mem_of_mem_orderDesc hpage)).1, rfl⟩
  · cases h

/-- The rows below a stored key are the ones stored before it. -/
theorem filter_below {front back : List ρ} {b : ρ} (h : Ascending key (front ++ b :: back)) :
    (front ++ b :: back).filter (fun r => decide (key r < key b)) = front := by
  obtain ⟨-, hback, hsep⟩ := List.pairwise_append.mp h
  have hfront : front.filter (fun r => decide (key r < key b)) = front := by
    rw [List.filter_eq_self]
    intro r hr
    exact decide_eq_true (hsep r hr b (List.mem_cons_self ..))
  have hrest : (b :: back).filter (fun r => decide (key r < key b)) = [] := by
    rw [List.filter_eq_nil_iff]
    intro r hr
    rcases List.mem_cons.mp hr with rfl | hr
    · simp
    · have := (List.pairwise_cons.mp hback).1 r hr
      simp only [decide_eq_true_eq]
      omega
  rw [List.filter_append, hfront, hrest, List.append_nil]

/-- The smallest key of an ascending list read backwards is its first. -/
theorem min_reverse {b : ρ} {back : List ρ} (h : Ascending key (b :: back)) :
    ((b :: back).reverse.map key).min? = some (key b) := by
  rw [List.min?_eq_some_iff]
  constructor
  · simp
  · intro k hk
    obtain ⟨r, hr, rfl⟩ := List.mem_map.mp hk
    rcases List.mem_cons.mp (List.mem_reverse.mp hr) with rfl | hr
    · exact Int.le_refl _
    · exact Int.le_of_lt ((List.pairwise_cons.mp h).1 r hr)

section Page

variable {key : ρ → Int} {cursor : Option Int} {rows : List ρ}

theorem page_reverse {unread : List ρ} (h : Ascending key unread) (n : Nat) :
    orderDesc key ((orderDesc key unread).take n) = unread.reverse.take n := by
  rw [orderDesc_eq_reverse h]
  refine orderDesc_eq_self (List.Pairwise.sublist (List.take_sublist _ _) ?_)
  rw [List.pairwise_reverse]
  exact h.imp fun hab => Int.le_of_lt hab

theorem keysetPage_last {unread : List ρ} {limit : Nat} (h : Ascending key unread)
    (hread : (rows.filter fun r => cursor.all fun c => decide (key r < c)) = unread)
    (hlen : unread.length ≤ limit) :
    keysetPage key cursor (some limit) rows = (unread.reverse, none) := by
  have htake : ∀ n, limit ≤ n → unread.reverse.take n = unread.reverse := fun n hn =>
    List.take_of_length_le (by rw [List.length_reverse]; omega)
  have hnot : ¬ limit < unread.length := by omega
  have hpage := page_reverse h (limit + 1)
  rw [orderDesc_eq_reverse h, htake _ (Nat.le_succ _)] at hpage
  simp [keysetPage, limited, hread, hpage, orderDesc_eq_reverse h, htake, hnot]

theorem keysetPage_next {front back : List ρ} {b : ρ} (h : Ascending key (front ++ b :: back))
    (hread : (rows.filter fun r => cursor.all fun c => decide (key r < c)) = front ++ b :: back)
    (hfront : front ≠ []) :
    keysetPage key cursor (some (b :: back).length) rows = ((b :: back).reverse, some (key b)) := by
  have hlen : 0 < front.length := List.length_pos_of_ne_nil hfront
  have hvisible : (front ++ b :: back).reverse.take (b :: back).length = (b :: back).reverse := by
    rw [List.reverse_append, List.take_left' (List.length_reverse ..)]
  have hmore : (b :: back).length < ((front ++ b :: back).reverse.take
      ((b :: back).length + 1)).length := by
    simp only [List.length_take, List.length_reverse, List.length_append]
    omega
  have hback : Ascending key (b :: back) := (List.pairwise_append.mp h).2.1
  unfold keysetPage
  simp only [limited, hread, Option.map_some, page_reverse h, Option.any_some]
  rw [orderDesc_eq_reverse h, List.take_take, Nat.min_eq_left (Nat.le_succ _), hvisible,
    min_reverse hback, decide_eq_true hmore]
  rfl

end Page

/-! ## Following the pages -/

/-- The items of one page after the other.  The table may be another one at each
fetch; the result is missing when the fetches are used up before the last page. -/
def follow {ε δ : Type} (fetch : Nat → Option Int → Except ε (List δ × Option Int)) :
    (fetches n : Nat) → (cursor : Option Int) → Except ε (Option (List δ))
  | 0, _, _ => .ok none
  | fetches + 1, n, cursor =>
      match fetch n cursor with
      | .error e => .error e
      | .ok (visible, none) => .ok (some visible)
      | .ok (visible, some c) =>
          (follow fetch fetches (n + 1) (some c)).map (Option.map (visible ++ ·))

section Follow

variable {ε δ : Type} {key : ρ → Int} {limit : Nat} {rows : Nat → List ρ} {item : ρ → δ}
  {fetch : Nat → Option Int → Except ε (List δ × Option Int)}

/-- What is not read yet is what was stored before the cursor at the first fetch,
however much the table has grown since. -/
def Unread (key : ρ → Int) (rows : Nat → List ρ) (n : Nat) (cursor : Option Int)
    (front : List ρ) : Prop :=
  (n = 0 ∧ cursor = none ∧ front = rows 0) ∨
    ∃ b back, cursor = some (key b) ∧ rows 0 = front ++ b :: back

theorem Unread.filter {n : Nat} {cursor : Option Int} {front : List ρ}
    (h : Unread key rows n cursor front)
    (hgrow : ∀ n, Ascending key (rows n) ∧ ∃ more, rows n = rows 0 ++ more) :
    ((rows n).filter fun r => cursor.all fun c => decide (key r < c)) = front := by
  rcases h with ⟨rfl, rfl, rfl⟩ | ⟨b, back, rfl, hbase⟩
  · simp
  · obtain ⟨hasc, more, hmore⟩ := hgrow n
    rw [hmore, hbase, List.append_assoc, List.cons_append] at hasc
    rw [hmore, hbase, List.append_assoc, List.cons_append]
    exact filter_below hasc

theorem Unread.ascending {n : Nat} {cursor : Option Int} {front : List ρ}
    (h : Unread key rows n cursor front)
    (hgrow : ∀ n, Ascending key (rows n) ∧ ∃ more, rows n = rows 0 ++ more) :
    Ascending key front := by
  rcases h with ⟨-, -, rfl⟩ | ⟨b, back, -, hbase⟩
  · exact (hgrow 0).1
  · have hasc := (hgrow 0).1
    rw [hbase] at hasc
    exact hasc.append_left

variable (key rows) in
/-- **Pages of a growing table.**  The pages from a point on show what was unread
there, backwards, and as many fetches as there are rows, and one, are enough. -/
theorem follow_unread (hlimit : 0 < limit)
    (hgrow : ∀ n, Ascending key (rows n) ∧ ∃ more, rows n = rows 0 ++ more)
    (hfetch : ∀ n cursor, (∀ c, cursor = some c → ∃ r ∈ rows 0, c = key r) →
      fetch n cursor = .ok ((keysetPage key cursor (some limit) (rows n)).map (List.map item) id)) :
    ∀ (fetches n : Nat) (cursor : Option Int) (front : List ρ),
      Unread key rows n cursor front → front.length < fetches →
        follow fetch fetches n cursor = .ok (some (front.reverse.map item)) := by
  intro fetches
  induction fetches with
  | zero =>
      intro n cursor front _ hlen
      exact absurd hlen (Nat.not_lt_zero _)
  | succ fetches ih =>
      intro n cursor front hunread hlen
      have hread := hunread.filter hgrow
      have hasc := hunread.ascending hgrow
      have hcursor : ∀ c, cursor = some c → ∃ r ∈ rows 0, c = key r := by
        intro c hc
        rcases hunread with ⟨-, hnone, -⟩ | ⟨b, back, hsome, hbase⟩
        · rw [hnone] at hc
          cases hc
        · rw [hsome] at hc
          cases hc
          exact ⟨b, by rw [hbase]; simp, rfl⟩
      unfold follow
      rw [hfetch n cursor hcursor]
      by_cases hlast : front.length ≤ limit
      · rw [keysetPage_last hasc hread hlast]
        rfl
      · -- the page is the end of what is unread, and the cursor its first row
        obtain ⟨rest, back, hsplit, hback⟩ : ∃ rest back, front = rest ++ back ∧
            back.length = limit := by
          refine ⟨front.take (front.length - limit), front.drop (front.length - limit),
            (List.take_append_drop _ _).symm, ?_⟩
          rw [List.length_drop]
          omega
        cases back with
        | nil =>
            rw [List.length_nil] at hback
            omega
        | cons b back =>
            have hrest : rest ≠ [] := by
              rintro rfl
              rw [hsplit, List.nil_append, hback] at hlast
              exact hlast (Nat.le_refl _)
            rw [hsplit] at hasc hread
            rw [← hback, keysetPage_next hasc hread hrest]
            have hnext : Unread key rows (n + 1) (some (key b)) rest := by
              refine .inr ?_
              rcases hunread with ⟨-, -, hbase⟩ | ⟨b', back', -, hbase⟩
              · exact ⟨b, back, rfl, hbase.symm.trans hsplit⟩
              · exact ⟨b, back ++ b' :: back', rfl, by rw [hbase, hsplit]; simp⟩
            have hshort : rest.length < fetches := by
              have : front.length = rest.length + limit := by rw [hsplit, List.length_append, hback]
              omega
            simp only [Prod.map, id_eq, ih (n + 1) (some (key b)) rest hnext hshort, hsplit, List.reverse_append,
              List.map_append]
            rfl

end Follow

end Sql
