import Mathlib.Data.List.TakeWhile
import Mathlib.Order.Basic

/-!
# Regular expressions

An expression takes a place in a text to the places where its matches end, in the order in which
backtracking finds them, so the first of them is the match.  A place knows the character before
it, what is left of the text, and what the groups have taken.

`findAll` is the loop of `exec` with the flag `g`.  What it finds is said by `Met`, without the
loop, for any description of what a match at one place is (`mem_findAll`).
-/

namespace Js.Regex

structure State where
  prev : Option Char
  rest : List Char
  groups : List (List Char)

abbrev Matcher := State → List State

/-! ## Places -/

def State.advance : ℕ → State → State
  | 0, s => s
  | n + 1, ⟨_, c :: cs, groups⟩ => State.advance n ⟨some c, cs, groups⟩
  | _ + 1, s => s

/-- The place after some characters, with the text that follows them. -/
def State.after (s : State) (u rest : List Char) : State := ⟨u.getLast?.or s.prev, rest, s.groups⟩

theorem State.advance_length (u : List Char) : ∀ {s : State} {rest : List Char},
    s.rest = u ++ rest → s.advance u.length = s.after u rest := by
  induction u with
  | nil =>
      rintro ⟨prev, cs, groups⟩ rest rfl
      rfl
  | cons c u ih =>
      rintro ⟨prev, cs, groups⟩ rest rfl
      rw [List.length_cons, List.cons_append, State.advance, ih rfl]
      cases u with
      | nil => rfl
      | cons d u =>
          have hlast := List.getLast?_eq_some_getLast (List.cons_ne_nil d u)
          rw [State.after, State.after, List.getLast?_cons_cons, hlast]
          rfl

theorem State.after_after (s : State) (u v r r' : List Char) :
    (s.after u r).after v r' = s.after (u ++ v) r' := by
  rw [State.after, State.after, State.after, List.getLast?_append, Option.or_assoc]

/-! ## Expressions -/

def one (p : Char → Bool) : Matcher := fun s =>
  match s.rest with
  | c :: cs => if p c then [s.after [c] cs] else []
  | [] => []

def run (p : Char → Bool) (cs : List Char) : ℕ := (cs.takeWhile p).length

/-- `p*`. -/
def many (p : Char → Bool) : Matcher := fun s =>
  (List.range (run p s.rest + 1)).reverse.map fun n => s.advance n

/-- `p*?`. -/
def lazy (p : Char → Bool) : Matcher := fun s =>
  (List.range (run p s.rest + 1)).map fun n => s.advance n

def Matcher.andThen (m n : Matcher) : Matcher := fun s => (m s).flatMap n

def sequence : List Matcher → Matcher
  | [] => fun s => [s]
  | m :: ms => m.andThen (sequence ms)

/-- `p+`. -/
def some1 (p : Char → Bool) : Matcher := sequence [one p, many p]

def text (cs : List Char) : Matcher := sequence (cs.map fun c => one (· == c))

/-- `m|n`. -/
def either (m n : Matcher) : Matcher := fun s => m s ++ n s

/-- `(m)`. -/
def group (m : Matcher) : Matcher := fun s =>
  (m s).map fun t => { t with groups :=
    s.groups ++ [s.rest.take (s.rest.length - t.rest.length)] }

/-- `\1`. -/
def back : Matcher := fun s => text (s.groups.headD []) s

/-- `^`. -/
def start : Matcher := fun s => if s.prev = none then [s] else []

/-- `\w`. -/
def wordChar (c : Char) : Bool := c.isAlphanum || c == '_'

/-- `\b`. -/
def boundary : Matcher := fun s =>
  if s.prev.any wordChar = s.rest.head?.any wordChar then [] else [s]

/-- `[...]` of some characters. -/
def oneOf (cs : List Char) (c : Char) : Bool := cs.contains c

/-- `[^...]` of some characters. -/
def noneOf (cs : List Char) (c : Char) : Bool := !cs.contains c

/-! ## Searching -/

def search (m : Matcher) : Option Char → List Char → Option State
  | prev, [] => (m ⟨prev, [], []⟩).head?
  | prev, c :: cs => (m ⟨prev, c :: cs, []⟩).head?.or (search m (some c) cs)

/-- `r.test(t)`. -/
def test (m : Matcher) (t : List Char) : Bool := (search m none t).isSome

/-- The matches of the loop of `exec`, so many of them at most. -/
def findAll (m : Matcher) : ℕ → Option Char → List Char → List State
  | 0, _, _ => []
  | n + 1, prev, cs =>
      match search m prev cs with
      | none => []
      | some t => t :: findAll m n t.prev t.rest

/-! ## Where matches end -/

section

variable {m n : Matcher} {s t : State} {p : Char → Bool} {u rest : List Char} {ms : List Matcher}

theorem mem_one : t ∈ one p s ↔ ∃ c cs, s.rest = c :: cs ∧ p c = true ∧ t = s.after [c] cs := by
  unfold one
  cases s.rest with
  | nil => simp
  | cons c cs =>
      dsimp only
      split_ifs with h
      · rw [List.mem_singleton]
        constructor
        · rintro rfl
          exact ⟨c, cs, rfl, h, rfl⟩
        · rintro ⟨d, ds, heq, -, rfl⟩
          cases heq
          rfl
      · refine iff_of_false (by simp) ?_
        rintro ⟨d, ds, heq, hd, -⟩
        cases heq
        exact h hd

theorem run_append (h : ∀ c ∈ u, p c = true) : u.length ≤ run p (u ++ rest) := by
  rw [run, List.takeWhile_append_of_pos h, List.length_append]
  exact Nat.le_add_right ..

theorem advance_run {i : ℕ} (hi : i ≤ run p s.rest) : ∃ u rest, s.rest = u ++ rest ∧
    u.length = i ∧ (∀ c ∈ u, p c = true) ∧ s.advance i = s.after u rest := by
  have hlength : (s.rest.take i).length = i := by
    rw [List.length_take]
    exact Nat.min_eq_left (Nat.le_trans hi (List.takeWhile_prefix p).length_le)
  have hsplit : s.rest = s.rest.take i ++ s.rest.drop i := (List.take_append_drop i s.rest).symm
  have htake : s.rest.take i <+: s.rest.takeWhile p :=
    List.prefix_of_prefix_length_le (List.take_prefix ..) (List.takeWhile_prefix p)
      (by rw [hlength]; exact hi)
  have hadvance := State.advance_length (s.rest.take i) hsplit
  rw [hlength] at hadvance
  exact ⟨_, _, hsplit, hlength, fun c hc => List.mem_takeWhile_imp (htake.subset hc), hadvance⟩

theorem exists_advance : (∃ i ≤ run p s.rest, t = s.advance i) ↔
    ∃ u rest, s.rest = u ++ rest ∧ (∀ c ∈ u, p c = true) ∧ t = s.after u rest := by
  constructor
  · rintro ⟨i, hi, rfl⟩
    obtain ⟨u, rest, heq, -, hu, hadvance⟩ := advance_run hi
    exact ⟨u, rest, heq, hu, hadvance⟩
  · rintro ⟨u, rest, heq, hu, rfl⟩
    refine ⟨u.length, ?_, (State.advance_length u heq).symm⟩
    rw [heq]
    exact run_append hu

theorem mem_many : t ∈ many p s ↔
    ∃ u rest, s.rest = u ++ rest ∧ (∀ c ∈ u, p c = true) ∧ t = s.after u rest := by
  rw [← exists_advance]
  simp only [many, List.mem_map, List.mem_reverse, List.mem_range, Nat.lt_succ_iff]
  exact exists_congr fun i => and_congr_right fun _ => eq_comm

theorem mem_lazy : t ∈ lazy p s ↔
    ∃ u rest, s.rest = u ++ rest ∧ (∀ c ∈ u, p c = true) ∧ t = s.after u rest := by
  rw [← exists_advance]
  simp only [lazy, List.mem_map, List.mem_range, Nat.lt_succ_iff]
  exact exists_congr fun i => and_congr_right fun _ => eq_comm

theorem mem_andThen : t ∈ m.andThen n s ↔ ∃ u ∈ m s, t ∈ n u := List.mem_flatMap

theorem mem_cons :
    t ∈ sequence (m :: ms) s ↔ ∃ u ∈ m s, t ∈ sequence ms u := mem_andThen

theorem mem_nil : t ∈ sequence [] s ↔ t = s := List.mem_singleton

theorem mem_either : t ∈ either m n s ↔ t ∈ m s ∨ t ∈ n s := List.mem_append

theorem mem_text {w : List Char} :
    t ∈ text w s ↔ ∃ rest, s.rest = w ++ rest ∧ t = s.after w rest := by
  unfold text
  induction w generalizing s with
  | nil =>
      rw [List.map_nil, mem_nil]
      constructor
      · rintro rfl
        exact ⟨t.rest, rfl, rfl⟩
      · rintro ⟨rest, rfl, rfl⟩
        rfl
  | cons c w ih =>
      rw [List.map_cons, mem_cons]
      simp only [ih, mem_one, beq_iff_eq]
      constructor
      · rintro ⟨u, ⟨d, cs, heq, rfl, rfl⟩, rest, hrest, rfl⟩
        have hcs : cs = w ++ rest := hrest
        exact ⟨rest, by rw [heq, hcs]; rfl, State.after_after ..⟩
      · rintro ⟨rest, heq, rfl⟩
        exact ⟨s.after [c] (w ++ rest), ⟨c, w ++ rest, heq, rfl, rfl⟩, rest, rfl,
          (s.after_after [c] w _ rest).symm⟩

theorem mem_some1 : t ∈ some1 p s ↔
    ∃ u rest, s.rest = u ++ rest ∧ u ≠ [] ∧ (∀ c ∈ u, p c = true) ∧ t = s.after u rest := by
  unfold some1
  rw [mem_cons]
  simp only [mem_cons, mem_nil, exists_eq_right', mem_one, mem_many]
  constructor
  · rintro ⟨v, ⟨c, cs, heq, hc, rfl⟩, u, rest, hu, hall, rfl⟩
    have hcs : cs = u ++ rest := hu
    refine ⟨c :: u, rest, by rw [heq, hcs]; rfl, List.cons_ne_nil _ _, ?_, s.after_after [c] u _ rest⟩
    exact List.forall_mem_cons.mpr ⟨hc, hall⟩
  · rintro ⟨u, rest, heq, hne, hall, rfl⟩
    obtain ⟨c, u, rfl⟩ := List.exists_cons_of_ne_nil hne
    obtain ⟨hc, hall⟩ := List.forall_mem_cons.mp hall
    exact ⟨s.after [c] (u ++ rest), ⟨c, u ++ rest, heq, hc, rfl⟩, u, rest, rfl, hall,
      (s.after_after [c] u _ rest).symm⟩

theorem mem_group : t ∈ group m s ↔ ∃ u ∈ m s,
    t = { u with groups := s.groups ++ [s.rest.take (s.rest.length - u.rest.length)] } := by
  unfold group
  rw [List.mem_map]
  exact exists_congr fun u => and_congr_right fun _ => eq_comm

theorem mem_text_cons {w : List Char} : t ∈ sequence (text w :: ms) s ↔
    ∃ rest, s.rest = w ++ rest ∧ t ∈ sequence ms (s.after w rest) := by
  simp only [mem_cons, mem_text]
  exact ⟨fun ⟨_, ⟨rest, heq, hu⟩, ht⟩ => ⟨rest, heq, hu ▸ ht⟩,
    fun ⟨rest, heq, ht⟩ => ⟨_, ⟨rest, heq, rfl⟩, ht⟩⟩

theorem mem_many_cons : t ∈ sequence (many p :: ms) s ↔
    ∃ u rest, s.rest = u ++ rest ∧ (∀ c ∈ u, p c = true) ∧ t ∈ sequence ms (s.after u rest) := by
  simp only [mem_cons, mem_many]
  exact ⟨fun ⟨_, ⟨u, rest, heq, hu, hv⟩, ht⟩ => ⟨u, rest, heq, hu, hv ▸ ht⟩,
    fun ⟨u, rest, heq, hu, ht⟩ => ⟨_, ⟨u, rest, heq, hu, rfl⟩, ht⟩⟩

theorem mem_group_of {P : List Char → Prop} (h : ∀ t, t ∈ m s ↔
    ∃ u rest, s.rest = u ++ rest ∧ P u ∧ t = s.after u rest) :
    t ∈ group m s ↔ ∃ u rest, s.rest = u ++ rest ∧ P u ∧
      t = ⟨u.getLast?.or s.prev, rest, s.groups ++ [u]⟩ := by
  have htake : ∀ u rest : List Char, s.rest = u ++ rest →
      s.rest.take (s.rest.length - rest.length) = u := by
    intro u rest heq
    rw [heq, List.length_append, Nat.add_sub_cancel, List.take_left]
  rw [mem_group]
  constructor
  · rintro ⟨v, hv, rfl⟩
    obtain ⟨u, rest, heq, hu, rfl⟩ := (h v).mp hv
    refine ⟨u, rest, heq, hu, ?_⟩
    show (⟨_, _, s.groups ++ [s.rest.take (s.rest.length - rest.length)]⟩ : State) = _
    rw [htake u rest heq]
    rfl
  · rintro ⟨u, rest, heq, hu, rfl⟩
    refine ⟨s.after u rest, (h _).mpr ⟨u, rest, heq, hu, rfl⟩, ?_⟩
    show _ = (⟨_, _, s.groups ++ [s.rest.take (s.rest.length - rest.length)]⟩ : State)
    rw [htake u rest heq]
    rfl

theorem mem_group_one : t ∈ group (one p) s ↔ ∃ c rest, s.rest = c :: rest ∧ p c = true ∧
    t = ⟨some c, rest, s.groups ++ [[c]]⟩ := by
  have hone : ∀ t, t ∈ one p s ↔ ∃ u rest, s.rest = u ++ rest ∧ (∃ c, u = [c] ∧ p c = true) ∧
      t = s.after u rest := by
    intro t
    rw [mem_one]
    constructor
    · rintro ⟨c, cs, heq, hc, rfl⟩
      exact ⟨[c], cs, heq, ⟨c, rfl, hc⟩, rfl⟩
    · rintro ⟨u, rest, heq, ⟨c, rfl, hc⟩, rfl⟩
      exact ⟨c, rest, heq, hc, rfl⟩
  rw [mem_group_of hone]
  constructor
  · rintro ⟨u, rest, heq, ⟨c, rfl, hc⟩, rfl⟩
    exact ⟨c, rest, heq, hc, rfl⟩
  · rintro ⟨c, rest, heq, hc, rfl⟩
    exact ⟨[c], rest, heq, ⟨c, rfl, hc⟩, rfl⟩

theorem mem_group_some1 : t ∈ group (some1 p) s ↔ ∃ u rest, s.rest = u ++ rest ∧
    (u ≠ [] ∧ ∀ c ∈ u, p c = true) ∧ t = ⟨u.getLast?.or s.prev, rest, s.groups ++ [u]⟩ := by
  refine mem_group_of fun t => ?_
  rw [mem_some1]
  simp only [and_assoc]

theorem mem_start : t ∈ start s ↔ s.prev = none ∧ t = s := by
  unfold start
  split_ifs with h <;> simp [h]

theorem mem_boundary : t ∈ boundary s ↔
    s.prev.any wordChar ≠ s.rest.head?.any wordChar ∧ t = s := by
  unfold boundary
  split_ifs with h <;> simp [h]

theorem sequence_append (ms ns : List Matcher) (s : State) :
    sequence (ms ++ ns) s = (sequence ms s).flatMap (sequence ns) := by
  induction ms generalizing s with
  | nil => exact (List.flatMap_singleton ..).symm
  | cons m ms ih =>
      show (m s).flatMap (sequence (ms ++ ns)) = ((m s).flatMap (sequence ms)).flatMap (sequence ns)
      rw [List.flatMap_assoc]
      exact congrArg (fun n => (m s).flatMap n) (funext ih)

theorem run_eq (h : ∀ c ∈ u, p c = true) (hrest : ∀ c ∈ rest.head?, p c = false) :
    run p (u ++ rest) = u.length := by
  have hnil : rest.takeWhile p = [] := by
    cases rest with
    | nil => rfl
    | cons c rest => exact List.takeWhile_cons_of_neg (by simp [hrest c rfl])
  rw [run, List.takeWhile_append_of_pos h, hnil, List.append_nil]

/-- The longest run comes first, and the next is one character shorter. -/
theorem many_run (hs : s.rest = u ++ rest) (h : ∀ c ∈ u, p c = true)
    (hrest : ∀ c ∈ rest.head?, p c = false) :
    many p s = s.after u rest ::
      (List.range u.length).reverse.map (fun n => s.advance n) := by
  rw [many, hs, run_eq h hrest, List.range_succ, List.reverse_append, List.reverse_singleton,
    List.singleton_append, List.map_cons, State.advance_length u hs]

theorem some1_run (hs : s.rest = u ++ rest) (hne : u ≠ [])
    (h : ∀ c ∈ u, p c = true) (hrest : ∀ c ∈ rest.head?, p c = false) :
    ∃ others, some1 p s = s.after u rest :: others ∧
      (∀ v c, u = v ++ [c] → v ≠ [] → ∃ others', others = s.after v (c :: rest) :: others') ∧
      (∀ c, u = [c] → others = []) := by
  obtain ⟨c, u, rfl⟩ := List.exists_cons_of_ne_nil hne
  obtain ⟨hc, hu⟩ := List.forall_mem_cons.mp h
  have hone : one p s = [s.after [c] (u ++ rest)] := by
    rw [one, hs]
    exact if_pos hc
  have hmany := many_run (s := s.after [c] (u ++ rest)) rfl hu hrest
  have hsome : some1 p s = many p (s.after [c] (u ++ rest)) := by
    show (one p s).flatMap (fun t => (many p t).flatMap fun t => [t]) = _
    rw [hone, List.flatMap_singleton]
    exact List.flatMap_singleton' _
  rw [hsome, hmany, State.after_after]
  refine ⟨_, rfl, ?_, ?_⟩
  · intro v d hv hvne
    obtain ⟨e, v, rfl⟩ := List.exists_cons_of_ne_nil hvne
    rw [List.cons_append, List.cons.injEq] at hv
    obtain ⟨rfl, rfl⟩ := hv
    have htext : (s.after [c] ((v ++ [d]) ++ rest)).rest = v ++ d :: rest :=
      List.append_assoc v [d] rest
    have hadvance := State.advance_length v htext
    rw [List.length_append, List.length_singleton, List.range_succ, List.reverse_append,
      List.reverse_singleton, List.singleton_append, List.map_cons, hadvance, State.after_after]
    exact ⟨_, rfl⟩
  · intro d hd
    rw [List.cons.injEq] at hd
    rw [hd.2]
    rfl

/-- The shortest run after which something is found. -/
theorem head_lazy {n : Matcher} : ((lazy p s).flatMap n).head? = some t ↔
    ∃ u rest, s.rest = u ++ rest ∧ (∀ c ∈ u, p c = true) ∧ (n (s.after u rest)).head? = some t ∧
      ∀ u' rest', s.rest = u' ++ rest' → u'.length < u.length → n (s.after u' rest') = [] := by
  have hrange : ∀ (f : ℕ → List State) (k : ℕ), ((List.range k).flatMap f).head? = some t ↔
      ∃ i < k, (f i).head? = some t ∧ ∀ j < i, f j = [] := by
    intro f k
    induction k with
    | zero => simp
    | succ k ih =>
        rw [List.range_succ, List.flatMap_append, List.flatMap_singleton, List.head?_append,
          Option.or_eq_some_iff, ih]
        constructor
        · rintro (⟨i, hi, h⟩ | ⟨hnone, hk⟩)
          · exact ⟨i, by omega, h⟩
          · refine ⟨k, by omega, hk, fun j hj => ?_⟩
            rw [List.head?_eq_none_iff, List.flatMap_eq_nil_iff] at hnone
            exact hnone j (List.mem_range.mpr hj)
        · rintro ⟨i, hi, hhead, hless⟩
          by_cases hik : i < k
          · exact .inl ⟨i, hik, hhead, hless⟩
          · obtain rfl : i = k := by omega
            refine .inr ⟨?_, hhead⟩
            rw [List.head?_eq_none_iff, List.flatMap_eq_nil_iff]
            exact fun j hj => hless j (List.mem_range.mp hj)
  rw [lazy, List.flatMap_map, hrange]
  constructor
  · rintro ⟨i, hi, hhead, hless⟩
    obtain ⟨u, rest, heq, hlength, hu, hadvance⟩ := advance_run (p := p) (s := s) (i := i) (by omega)
    rw [hadvance] at hhead
    refine ⟨u, rest, heq, hu, hhead, fun u' rest' heq' hlt => ?_⟩
    have hj := hless u'.length (by omega)
    rwa [State.advance_length u' heq'] at hj
  · rintro ⟨u, rest, heq, hu, hhead, hless⟩
    have hrun : u.length ≤ run p s.rest := by
      rw [heq]
      exact run_append hu
    refine ⟨u.length, ?_, ?_, fun j hj => ?_⟩
    · omega
    · rwa [State.advance_length u heq]
    · obtain ⟨u', rest', heq', hlength, -, hadvance⟩ := advance_run (p := p) (s := s) (i := j) (by omega)
      rw [hadvance]
      exact hless u' rest' heq' (by omega)

end

/-! ## What is found -/

/-- A match at a place: the place, the text from there on, and where the match ends. -/
abbrev Match := Option Char → List Char → State → Prop

/-- The matches that are met when a text is read from a place on.  Where a match begins, reading
goes on after it. -/
inductive Met (B : Match) : Option Char → List Char → State → Prop where
  | here {prev : Option Char} {cs : List Char} {t : State} : B prev cs t → Met B prev cs t
  | past {prev : Option Char} {cs : List Char} {s t : State} : B prev cs s →
      Met B s.prev s.rest t → Met B prev cs t
  | skip {prev : Option Char} {c : Char} {cs : List Char} {t : State} :
      (∀ s, ¬ B prev (c :: cs) s) → Met B (some c) cs t → Met B prev (c :: cs) t

section

variable {m : Matcher} {B : Match}

def Finds (m : Matcher) (B : Match) : Prop :=
  ∀ prev cs t, (m ⟨prev, cs, []⟩).head? = some t ↔ B prev cs t

theorem Finds.none (h : Finds m B) {prev : Option Char} {cs : List Char} :
    (m ⟨prev, cs, []⟩).head? = none ↔ ∀ s, ¬ B prev cs s := by
  rw [Option.eq_none_iff_forall_ne_some]
  exact forall_congr' fun s => not_congr (h prev cs s)

theorem met_iff (h : Finds m B) {t : State} : ∀ {cs : List Char} {prev : Option Char},
    Met B prev cs t ↔ ∃ s, search m prev cs = some s ∧ (t = s ∨ Met B s.prev s.rest t) := by
  intro cs
  induction cs with
  | nil =>
      intro prev
      rw [search]
      constructor
      · intro hmet
        cases hmet with
        | here hb => exact ⟨t, (h _ _ _).mpr hb, .inl rfl⟩
        | past hb hrest => exact ⟨_, (h _ _ _).mpr hb, .inr hrest⟩
      · rintro ⟨s, hs, rfl | hrest⟩
        · exact .here ((h _ _ _).mp hs)
        · exact .past ((h _ _ _).mp hs) hrest
  | cons c cs ih =>
      intro prev
      rw [search]
      cases hhead : (m ⟨prev, c :: cs, []⟩).head? with
      | some s =>
          rw [Option.some_or]
          have hb := (h _ _ _).mp hhead
          constructor
          · intro hmet
            refine ⟨s, rfl, ?_⟩
            cases hmet with
            | here hb' =>
                rw [(h _ _ _).mpr hb'] at hhead
                exact .inl (Option.some.inj hhead)
            | past hb' hrest =>
                rw [(h _ _ _).mpr hb'] at hhead
                cases hhead
                exact .inr hrest
            | skip hno => exact absurd hb (hno s)
          · rintro ⟨s', heq, hrest⟩
            cases heq
            rcases hrest with rfl | hrest
            · exact .here hb
            · exact .past hb hrest
      | none =>
          rw [Option.none_or, ← ih]
          have hno := h.none.mp hhead
          constructor
          · intro hmet
            cases hmet with
            | here hb => exact absurd hb (hno t)
            | past hb => exact absurd hb (hno _)
            | skip _ hrest => exact hrest
          · exact .skip hno

/-- A search ends before more of the text is left than a match that was found may leave. -/
theorem search_rest (h : Finds m B) (hless : ∀ prev cs t, B prev cs t → t.rest.length < cs.length)
    {t : State} : ∀ {cs : List Char} {prev : Option Char}, search m prev cs = some t →
      t.rest.length < cs.length := by
  intro cs
  induction cs with
  | nil =>
      intro prev hs
      exact hless _ _ _ ((h _ _ _).mp hs)
  | cons c cs ih =>
      intro prev hs
      rw [search] at hs
      cases hhead : (m ⟨prev, c :: cs, []⟩).head? with
      | some s =>
          rw [hhead] at hs
          cases hs
          exact hless _ _ _ ((h _ _ _).mp hhead)
      | none =>
          rw [hhead, Option.none_or] at hs
          exact Nat.lt_succ_of_lt (ih hs)

theorem mem_findAll (h : Finds m B) (hless : ∀ prev cs t, B prev cs t → t.rest.length < cs.length)
    {t : State} (n : ℕ) : ∀ {prev : Option Char} {cs : List Char}, cs.length < n →
      (t ∈ findAll m n prev cs ↔ Met B prev cs t) := by
  induction n with
  | zero => exact fun hn => absurd hn (Nat.not_lt_zero _)
  | succ n ih =>
      intro prev cs hn
      rw [findAll, met_iff h]
      cases hsearch : search m prev cs with
      | none => simp
      | some s =>
          have hlength := search_rest h hless hsearch
          have hrest : t ∈ findAll m n s.prev s.rest ↔ Met B s.prev s.rest t := ih (by omega)
          simp [hrest]

/-- Something is found if there is a match at some place of the text. -/
theorem test_iff (m : Matcher) (t : List Char) : test m t = true ↔
    ∃ before after, t = before ++ after ∧ m ⟨before.getLast?, after, []⟩ ≠ [] := by
  have hsearch : ∀ (cs : List Char) (prev : Option Char), (search m prev cs).isSome = true ↔
      ∃ before after, cs = before ++ after ∧ m ⟨before.getLast?.or prev, after, []⟩ ≠ [] := by
    intro cs
    induction cs with
    | nil =>
        intro prev
        rw [search, List.isSome_head?]
        constructor
        · exact fun h => ⟨[], [], rfl, h⟩
        · rintro ⟨before, after, heq, h⟩
          obtain ⟨rfl, rfl⟩ := List.append_eq_nil_iff.mp heq.symm
          exact h
    | cons c cs ih =>
        intro prev
        rw [search, Option.isSome_or, Bool.or_eq_true, List.isSome_head?, ih]
        constructor
        · rintro (h | ⟨before, after, rfl, h⟩)
          · exact ⟨[], c :: cs, rfl, h⟩
          · refine ⟨c :: before, after, rfl, ?_⟩
            rwa [List.getLast?_cons, Option.some_or, ← Option.or_some]
        · rintro ⟨before, after, heq, h⟩
          cases before with
          | nil => exact .inl (by rwa [heq])
          | cons d before =>
              rw [List.cons_append, List.cons.injEq] at heq
              obtain ⟨rfl, rfl⟩ := heq
              refine .inr ⟨before, after, rfl, ?_⟩
              rwa [List.getLast?_cons, Option.some_or, ← Option.or_some] at h
  have hstart := hsearch t none
  simp only [Option.or_none] at hstart
  exact hstart

end

end Js.Regex
