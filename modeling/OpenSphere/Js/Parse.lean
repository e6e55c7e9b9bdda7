import OpenSphere.Js.Tree

/-!
# Reading JSON

`JSON.parse` reads a value by recursive descent.  The number that is counted down bounds the
depth of the recursion, which no text exceeds that has fewer characters.  Where a key is there
twice, the later value stands at the earlier place.

`parse_stringify` says that a value comes back from its text.
-/

open Sql (chars)

namespace Js

namespace Tree

/-! ## The reader -/

def space (c : Char) : Bool := [' ', '\t', '\n', '\r'].contains c

def skip (cs : List Char) : List Char := cs.dropWhile space

def scanLiteral : List Char → List Char → Option (List Char)
  | [], cs => some cs
  | _ :: _, [] => none
  | t :: ts, c :: cs => if t = c then scanLiteral ts cs else none

def define (ms : List (Utf16 × Tree)) (m : Utf16 × Tree) : List (Utf16 × Tree) :=
  if m.1 ∈ keys ms then ms.map fun n => if n.1 = m.1 then m else n else ms ++ [m]

def objectOf (ms : List (Utf16 × Tree)) : Tree := .object (ms.foldl define [])

/-- The text after a character that is the next token. -/
def expect (c : Char) (cs : List Char) : Option (List Char) :=
  match skip cs with
  | [] => none
  | d :: ds => if d = c then some ds else none

mutual

def parseValue : ℕ → List Char → Option (Tree × List Char)
  | 0, _ => none
  | n + 1, cs =>
      match skip cs with
      | [] => none
      | c :: cs =>
          if c = '"' then (scanString (cs.length + 1) cs).map fun (s, cs) => (.string s, cs)
          else if c = '[' then
            match expect ']' cs with
            | some cs => some (.array [], cs)
            | none => (parseElements n cs).map fun (xs, cs) => (.array xs, cs)
          else if c = '\x7b' then
            match expect '\x7d' cs with
            | some cs => some (.object [], cs)
            | none => (parseMembers n cs).map fun (ms, cs) => (objectOf ms, cs)
          else if c = 't' then (scanLiteral (chars "rue") cs).map fun cs => (.boolean true, cs)
          else if c = 'f' then (scanLiteral (chars "alse") cs).map fun cs => (.boolean false, cs)
          else if c = 'n' then (scanLiteral (chars "ull") cs).map fun cs => (.null, cs)
          else (scanNumber (c :: cs)).map fun (x, cs) => (.number x, cs)

def parseElements : ℕ → List Char → Option (List Tree × List Char)
  | 0, _ => none
  | n + 1, cs => do
      let (x, cs) ← parseValue n cs
      match expect ',' cs with
      | some cs => do
          let (xs, cs) ← parseElements n cs
          return (x :: xs, cs)
      | none => do
          let cs ← expect ']' cs
          return ([x], cs)

def parseMembers : ℕ → List Char → Option (List (Utf16 × Tree) × List Char)
  | 0, _ => none
  | n + 1, cs => do
      let cs ← expect '"' cs
      let (k, cs) ← scanString (cs.length + 1) cs
      let cs ← expect ':' cs
      let (x, cs) ← parseValue n cs
      match expect ',' cs with
      | some cs => do
          let (ms, cs) ← parseMembers n cs
          return ((k, x) :: ms, cs)
      | none => do
          let cs ← expect '\x7d' cs
          return ([(k, x)], cs)

end

/-- `JSON.parse(t)`. -/
def parse (cs : List Char) : Option Tree := do
  let (x, rest) ← parseValue (cs.length + 1) cs
  if skip rest = [] then return x else none

/-! ## The round trip -/

section

variable {n : ℕ} {cs rest : List Char}

theorem expect_cons {c : Char} (hc : space c = false) : expect c (c :: cs) = some cs := by
  rw [expect, skip, List.dropWhile_cons, hc]
  simp

theorem expect_of_ne {c d : Char} (hd : space d = false) (hne : d ≠ c) :
    expect c (d :: cs) = none := by
  rw [expect, skip, List.dropWhile_cons, hd]
  simp [hne]

/-- A text begins with a token, and not with one that closes. -/
def Starts (cs : List Char) : Prop :=
  ∃ c ds, cs = c :: ds ∧ space c = false ∧ c ≠ ']' ∧ c ≠ '\x7d'

theorem Starts.expect (h : Starts cs) {c : Char} (hc : c = ']' ∨ c = '\x7d') (rest : List Char) :
    expect c (cs ++ rest) = none := by
  obtain ⟨d, ds, rfl, hspace, hbracket, hbrace⟩ := h
  refine expect_of_ne hspace ?_
  rcases hc with rfl | rfl
  · exact hbracket
  · exact hbrace

theorem number_ne {c : Char} (h : Sql.digit c = true ∨ c = '-') :
    space c = false ∧ ∀ d ∈ ['"', '[', ']', '\x7b', '\x7d', 't', 'f', 'n'], c ≠ d := by
  rcases h with h | rfl
  · have hne : ∀ d : Char, Sql.digit d = false → c ≠ d := fun d hd => Sql.digit_ne h hd
    refine ⟨?_, fun d hd => hne d ?_⟩
    · rw [space, List.contains_eq_mem, decide_eq_false_iff_not]
      intro hmem
      have hall : ∀ d ∈ [' ', '\t', '\n', '\r'], Sql.digit d = false := by decide
      exact hne c (hall c hmem) rfl
    · have hall : ∀ d ∈ ['"', '[', ']', '\x7b', '\x7d', 't', 'f', 'n'], Sql.digit d = false := by
        decide
      exact hall d hd
  · decide

theorem starts_stringify (x : Tree) : Starts x.stringify := by
  cases x with
  | null => exact ⟨'n', _, rfl, by decide⟩
  | boolean b => cases b <;> exact ⟨_, _, rfl, by decide⟩
  | number x =>
      cases x with
      | finite x =>
          obtain ⟨c, cs, hcs, hc⟩ := x.exists_text
          obtain ⟨hspace, hne⟩ := number_ne hc
          exact ⟨c, cs, hcs, hspace, hne _ (by decide), hne _ (by decide)⟩
      | infinite b => exact ⟨'n', _, rfl, by decide⟩
  | string s => exact ⟨'"', _, rfl, by decide⟩
  | array xs => exact ⟨'[', _, rfl, by decide⟩
  | object ms => exact ⟨'\x7b', _, rfl, by decide⟩

theorem apart_cons {c : Char} (hc : c = ',' ∨ c = ']' ∨ c = '\x7d') : Apart (c :: cs) := by
  intro d hd
  cases hd
  rcases hc with rfl | rfl | rfl <;> decide

theorem commas_cons (t : List Char) (ts : List (List Char)) :
    commas (t :: ts) = t ++ if ts = [] then [] else ',' :: commas ts := by
  cases ts with
  | nil => exact (List.append_nil t).symm
  | cons u us => rw [commas, if_neg (by simp)]; simp

/-- Members of different keys are defined as they stand. -/
theorem foldl_define {ms ns : List (Utf16 × Tree)} (h : (keys (ns ++ ms)).Nodup) :
    ms.foldl define ns = ns ++ ms := by
  induction ms generalizing ns with
  | nil => rw [List.foldl_nil, List.append_nil]
  | cons m ms ih =>
      have hm : m.1 ∉ keys ns := by
        rw [keys, List.map_append, List.nodup_append] at h
        exact fun hmem => h.2.2 _ hmem m.1 (by simp) rfl
      rw [List.foldl_cons, define, if_neg hm, ih (by rwa [List.append_assoc]), List.append_assoc]
      rfl

/-- A value that comes back from its text, whatever follows. -/
def Comes (x : Tree) : Prop := ∀ n rest, x.stringify.length < n → Apart rest →
  parseValue n (x.stringify ++ rest) = some (x, rest)

theorem parseElements_stringify {xs : List Tree} (hne : xs ≠ []) (h : ∀ x ∈ xs, Comes x)
    (rest : List Char) : ∀ n, (commas (xs.map stringify)).length + 1 < n →
      parseElements n (commas (xs.map stringify) ++ ']' :: rest) = some (xs, rest) := by
  induction xs with
  | nil => exact absurd rfl hne
  | cons x xs ih =>
      intro n hn
      obtain ⟨n, rfl⟩ := Nat.exists_eq_add_one.mpr (Nat.zero_lt_of_lt hn)
      have hx := h x (List.mem_cons_self ..)
      rw [List.map_cons, commas_cons, List.length_append] at hn
      rw [List.map_cons, commas_cons, List.append_assoc, parseElements]
      by_cases hxs : xs = []
      · subst hxs
        rw [List.map_nil, if_pos rfl, List.nil_append,
          hx n _ (by omega) (apart_cons (.inr (.inl rfl)))]
        simp only [Option.bind_eq_bind, Option.bind_some]
        rw [expect_of_ne (by decide) (by decide)]
        simp only
        rw [expect_cons (by decide)]
        rfl
      · have hmap : xs.map stringify ≠ [] := by simpa using hxs
        rw [if_neg hmap, List.length_cons] at hn
        rw [if_neg hmap, List.cons_append, hx n _ (by omega) (apart_cons (.inl rfl))]
        simp only [Option.bind_eq_bind, Option.bind_some]
        rw [expect_cons (by decide)]
        simp only
        rw [ih hxs (fun y hy => h y (List.mem_cons_of_mem _ hy)) n (by omega)]
        rfl

theorem parseMembers_stringify {ms : List (Utf16 × Tree)} (hne : ms ≠ []) (h : ∀ m ∈ ms, Comes m.2)
    (rest : List Char) : ∀ n, (commas (stringifyMembers ms)).length + 1 < n →
      parseMembers n (commas (stringifyMembers ms) ++ '\x7d' :: rest) = some (ms, rest) := by
  induction ms with
  | nil => exact absurd rfl hne
  | cons m ms ih =>
      obtain ⟨k, x⟩ := m
      intro n hn
      obtain ⟨n, rfl⟩ := Nat.exists_eq_add_one.mpr (Nat.zero_lt_of_lt hn)
      have hx : Comes x := h (k, x) (List.mem_cons_self ..)
      have hkey : ∀ cs, scanString ((quoteUnits k ++ '"' :: cs).length + 1) (quoteUnits k ++ '"' :: cs)
          = some (k, cs) := by
        intro cs
        refine scanString_quoteUnits k cs _ ?_
        rw [List.length_append]
        omega
      have hmember : ∀ cs, memberText k x.stringify ++ cs =
          '"' :: (quoteUnits k ++ '"' :: ':' :: (x.stringify ++ cs)) := by
        intro cs
        simp [memberText, quoteText]
      rw [stringifyMembers, commas_cons, List.length_append] at hn
      have hlength : x.stringify.length < (memberText k x.stringify).length := by
        rw [memberText, List.length_append, List.length_cons]
        omega
      rw [stringifyMembers, commas_cons, List.append_assoc, hmember, parseMembers,
        expect_cons (by decide)]
      simp only [Option.bind_eq_bind, Option.bind_some]
      rw [hkey]
      simp only [Option.bind_some]
      rw [expect_cons (by decide)]
      simp only [Option.bind_some]
      by_cases hms : ms = []
      · subst hms
        rw [stringifyMembers, if_pos rfl, List.nil_append,
          hx n _ (by omega) (apart_cons (.inr (.inr rfl)))]
        simp only [Option.bind_some]
        rw [expect_of_ne (by decide) (by decide)]
        simp only
        rw [expect_cons (by decide)]
        rfl
      · have hmap : stringifyMembers ms ≠ [] := by
          rw [stringifyMembers_eq]
          simpa using hms
        rw [if_neg hmap, List.length_cons] at hn
        rw [if_neg hmap, List.cons_append, hx n _ (by omega) (apart_cons (.inl rfl))]
        simp only [Option.bind_some]
        rw [expect_cons (by decide)]
        simp only
        rw [ih hms (fun y hy => h y (List.mem_cons_of_mem _ hy)) n (by omega)]
        rfl

theorem skip_cons {c : Char} (h : space c = false) : skip (c :: cs) = c :: cs := by
  rw [skip, List.dropWhile_cons, h]
  rfl

/-- A value comes back from its text, whatever follows. -/
theorem comes_stringify {x : Tree} (h : Plain x) : Comes x := by
  induction h with
  | null =>
      intro n rest hn _
      obtain ⟨n, rfl⟩ := Nat.exists_eq_add_one.mpr (Nat.zero_lt_of_lt hn)
      rfl
  | boolean b =>
      intro n rest hn _
      obtain ⟨n, rfl⟩ := Nat.exists_eq_add_one.mpr (Nat.zero_lt_of_lt hn)
      cases b <;> rfl
  | number x =>
      intro n rest hn hrest
      obtain ⟨n, rfl⟩ := Nat.exists_eq_add_one.mpr (Nat.zero_lt_of_lt hn)
      have hscan := scan_number x hrest
      obtain ⟨c, cs, hcs, hc⟩ := x.exists_text
      obtain ⟨hspace, hne⟩ := number_ne hc
      rw [stringify, hcs, List.cons_append, parseValue, skip_cons hspace]
      rw [hcs, List.cons_append] at hscan
      simp only [hne _ (show '"' ∈ _ by decide), hne _ (show '[' ∈ _ by decide),
        hne _ (show '\x7b' ∈ _ by decide), hne _ (show 't' ∈ _ by decide),
        hne _ (show 'f' ∈ _ by decide), hne _ (show 'n' ∈ _ by decide), if_false, hscan,
        Option.map_some]
  | string s =>
      intro n rest hn _
      obtain ⟨n, rfl⟩ := Nat.exists_eq_add_one.mpr (Nat.zero_lt_of_lt hn)
      rw [stringify, quoteText, List.cons_append, List.append_assoc, parseValue,
        skip_cons (by decide)]
      simp only [if_true, List.singleton_append]
      rw [scanString_quoteUnits s rest _ (by rw [List.length_append]; omega)]
      rfl
  | @array xs _ ih =>
      intro n rest hn _
      obtain ⟨n, rfl⟩ := Nat.exists_eq_add_one.mpr (Nat.zero_lt_of_lt hn)
      rw [stringify, stringifyAll_eq] at hn ⊢
      rw [List.cons_append, List.append_assoc, List.singleton_append, parseValue,
        skip_cons (by decide)]
      rw [List.length_cons, List.length_append] at hn
      simp only [show ('[' : Char) ≠ '"' by decide, if_false, if_true]
      by_cases hxs : xs = []
      · subst hxs
        rw [List.map_nil, commas, List.nil_append, expect_cons (by decide)]
      · have hnone : expect ']' (commas (xs.map stringify) ++ ']' :: rest) = none := by
          obtain ⟨x, xs, rfl⟩ := List.exists_cons_of_ne_nil hxs
          rw [List.map_cons, commas_cons, List.append_assoc]
          exact (starts_stringify x).expect (.inl rfl) _
        rw [hnone]
        simp only
        rw [parseElements_stringify hxs ih rest n (by simp only [List.length_singleton] at hn; omega)]
        rfl
  | @object ms hnodup _ ih =>
      intro n rest hn _
      obtain ⟨n, rfl⟩ := Nat.exists_eq_add_one.mpr (Nat.zero_lt_of_lt hn)
      rw [stringify] at hn ⊢
      rw [List.cons_append, List.append_assoc, List.singleton_append, parseValue,
        skip_cons (by decide)]
      rw [List.length_cons, List.length_append] at hn
      simp only [show ('\x7b' : Char) ≠ '"' by decide, show ('\x7b' : Char) ≠ '[' by decide,
        if_false, if_true]
      by_cases hms : ms = []
      · subst hms
        rw [stringifyMembers, commas, List.nil_append, expect_cons (by decide)]
      · have hnone : expect '\x7d' (commas (stringifyMembers ms) ++ '\x7d' :: rest) = none := by
          obtain ⟨⟨k, x⟩, ms, rfl⟩ := List.exists_cons_of_ne_nil hms
          rw [stringifyMembers, commas_cons, List.append_assoc]
          exact expect_of_ne (by decide) (by decide)
        rw [hnone]
        simp only
        rw [parseMembers_stringify hms ih rest n (by simp only [List.length_singleton] at hn; omega)]
        rw [Option.map_some, objectOf, foldl_define (by rwa [List.nil_append]), List.nil_append]

/-- A value comes back from its text. -/
theorem parse_stringify {x : Tree} (h : Plain x) : parse x.stringify = some x := by
  have hcomes := comes_stringify h (x.stringify.length + 1) [] (Nat.lt_succ_self _)
    fun c hc => nomatch hc
  rw [List.append_nil] at hcomes
  rw [parse, hcomes]
  rfl

end

end Tree

end Js
