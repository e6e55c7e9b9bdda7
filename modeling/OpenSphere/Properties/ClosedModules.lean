import OpenSphere.Extension.Modules

/-!
# Closed modules

An entry is closed if `moduleDependencySpecifiers` finds no other module in it.  What it finds is
said here by the layouts of a text that it takes for a dependency: an import with a name only, an export
or an import with a clause and a name, and a call with a name.  The text is read from its
beginning once for each of the three, and a layout that begins where reading goes on is seen.

A declaration of the grammar may be laid out in other ways, which are not seen.
-/

open Sql (chars)
open Js (whitespace)
open Js.Regex

namespace Extension

variable {name : String} {m : Matcher} {b : List Char} {c : Char}

/-! ## Layouts -/

def Every (p : Char → Bool) (u : List Char) : Prop := ∀ c ∈ u, p c = true

/-- A text begins with a name in quotes, and goes on after them. -/
structure Quoted (cs : List Char) (q : Char) (x rest : List Char) : Prop where
  text : cs = q :: x ++ q :: rest
  quote : quote q = true
  nonempty : x ≠ []
  name : Every nameChar x

/-- In front of a keyword there is the beginning of the source or one of `;`, `}` and the ends of
a line, and white space. -/
def Front (prev : Option Char) (u : List Char) : Prop :=
  ∃ lead w, u = lead ++ w ∧ Every whitespace w ∧
    (prev = none ∧ lead = [] ∨ ∃ c, lead = [c] ∧ oneOf [';', '\x7d', '\r', '\n'] c = true)

inductive BareImport : Match where
  | intro {prev : Option Char} {cs u g r x rest : List Char} {q : Char} :
      cs = u ++ (chars "import" ++ (g ++ r)) → Front prev u → Every blank g → Quoted r q x rest →
      BareImport prev cs ⟨some q, rest, [[q], x]⟩

/-- The end of a clause: blanks, `from`, and a name. -/
inductive Tail : List Char → State → Prop where
  | intro {cs h g r x rest : List Char} {q : Char} : cs = h ++ (chars "from" ++ (g ++ r)) →
      h ≠ [] → Every blank h → Every blank g → Quoted r q x rest →
      Tail cs ⟨some q, rest, [[q], x]⟩

/-- A text is some blanks, and something that does not begin with a blank. -/
structure Blanks (cs b rest : List Char) : Prop where
  text : cs = b ++ rest
  nonempty : b ≠ []
  blank : Every blank b
  ends : ∀ c ∈ rest.head?, Extension.blank c = false

/-- What follows the keyword of a clause.  After its blanks the first end of a clause counts that
comes before the end of the line or a semicolon; if there is none, one directly after the blanks
counts where they are two at least. -/
inductive Clause : List Char → State → Prop where
  | far {cs b u rest : List Char} {t : State} : Blanks cs b (u ++ rest) → Every lineChar u →
      Tail rest t → (∀ u' rest' t', u ++ rest = u' ++ rest' → u'.length < u.length →
        ¬ Tail rest' t') → Clause cs t
  | near {cs b r : List Char} {c : Char} {t : State} : Blanks cs (b ++ [c]) r → b ≠ [] →
      (∀ u rest t', r = u ++ rest → Every lineChar u → ¬ Tail rest t') → Tail (c :: r) t →
      Clause cs t

inductive FromClause : Match where
  | intro {prev : Option Char} {cs u r : List Char} {t : State} {keyword : String} :
      cs = u ++ (chars keyword ++ r) → Front prev u → keyword = "import" ∨ keyword = "export" →
      Clause r t → FromClause prev cs t

/-- A call of `import` with a name. -/
inductive NamedCall : Match where
  | intro {prev : Option Char} {cs g g' g'' r x rest : List Char} {q : Char} :
      cs = chars "import" ++ (g ++ '(' :: (g' ++ r)) → prev.any wordChar = false →
      Every blank g → Every blank g' → Every blank g'' → Quoted r q x (g'' ++ ')' :: rest) →
      NamedCall prev cs ⟨some ')', rest, [[q], x]⟩

/-! ## Runs -/

section

variable {p : Char → Bool} {s t : State} {q : Char} {u u' r r' x rest : List Char}

theorem run_unique (heq : u ++ r = u' ++ r') (hu : Every p u) (hu' : Every p u')
    (hr : ∀ c ∈ r.head?, p c = false) (hr' : ∀ c ∈ r'.head?, p c = false) : u = u' ∧ r = r' := by
  have hlength : u.length = u'.length := by
    have hrun := run_eq hu hr
    rw [heq, run_eq hu' hr'] at hrun
    exact hrun.symm
  exact List.append_inj heq hlength

theorem Quoted.head (h : Quoted r q x rest) : r.head? = some q := by
  rw [h.text]
  rfl

theorem quote_facts (h : quote q = true) : blank q = false ∧ nameChar q = false := by
  simp only [quote, oneOf, List.contains_eq_mem, List.mem_cons, List.not_mem_nil, or_false,
    decide_eq_true_eq] at h
  rcases h with rfl | rfl <;> exact ⟨rfl, rfl⟩

theorem Quoted.unique {q' : Char} {x' rest' : List Char} (h : Quoted r q x rest)
    (h' : Quoted r q' x' rest') : q = q' ∧ x = x' ∧ rest = rest' := by
  have heq := h.text.symm.trans h'.text
  rw [List.cons_append, List.cons_append, List.cons.injEq] at heq
  obtain ⟨rfl, heq⟩ := heq
  have hends : ∀ rest : List Char, ∀ c ∈ (q :: rest).head?, nameChar c = false := by
    rintro rest c ⟨⟩
    exact (quote_facts h.quote).2
  obtain ⟨rfl, hrest⟩ := run_unique heq h.name h'.name (hends _) (hends _)
  rw [List.cons.injEq] at hrest
  exact ⟨rfl, rfl, hrest.2⟩

theorem Quoted.blanks_unique {q' : Char} {x' rest' : List Char} (heq : u ++ r = u' ++ r')
    (hu : Every blank u) (hu' : Every blank u') (h : Quoted r q x rest)
    (h' : Quoted r' q' x' rest') : u = u' ∧ r = r' := by
  refine run_unique heq hu hu' ?_ ?_
  · rw [h.head]
    rintro c ⟨⟩
    exact (quote_facts h.quote).1
  · rw [h'.head]
    rintro c ⟨⟩
    exact (quote_facts h'.quote).1

theorem mem_quotedName {ms : List Matcher} (hs : s.groups = []) :
    t ∈ sequence (quotedName ++ ms) s ↔ ∃ q x rest, Quoted s.rest q x rest ∧
      t ∈ sequence ms ⟨some q, rest, [[q], x]⟩ := by
  obtain ⟨prev, cs, groups⟩ := s
  obtain rfl : groups = [] := hs
  rw [quotedName, List.cons_append, List.cons_append, List.cons_append, List.nil_append]
  simp only [mem_cons, mem_group_one, mem_group_some1]
  constructor
  · rintro ⟨-, ⟨q, ds, heq, hq, rfl⟩, -, ⟨x, es, hes, ⟨hne, hx⟩, rfl⟩, y, hy, ht⟩
    obtain ⟨rest, hrest, rfl⟩ := mem_text.mp hy
    have hfirst : cs = q :: ds := heq
    have hname : ds = x ++ es := hes
    have hlast : es = q :: rest := hrest
    subst hfirst hname hlast
    exact ⟨q, x, rest, ⟨rfl, hq, hne, hx⟩, ht⟩
  · rintro ⟨q, x, rest, ⟨hcs, hq, hne, hx⟩, ht⟩
    refine ⟨_, ⟨q, x ++ q :: rest, hcs, hq, rfl⟩, _, ⟨x, q :: rest, rfl, ⟨hne, hx⟩, rfl⟩, ?_⟩
    exact ⟨_, mem_text.mpr ⟨rest, rfl, rfl⟩, ht⟩

theorem Front.class {prev : Option Char} (h : Front prev u) :
    Every (fun c => whitespace c || oneOf [';', '\x7d', '\r', '\n'] c) u := by
  obtain ⟨lead, w, rfl, hw, hlead⟩ := h
  intro c hc
  rw [Bool.or_eq_true]
  rcases List.mem_append.mp hc with hc | hc
  · rcases hlead with ⟨-, rfl⟩ | ⟨d, rfl, hd⟩
    · cases hc
    · rw [List.mem_singleton.mp hc]
      exact .inr hd
  · exact .inl (hw c hc)

theorem Front.unique {prev : Option Char} (heq : u ++ r = u' ++ r') (h : Front prev u)
    (h' : Front prev u') (hr : r.head? = some 'i' ∨ r.head? = some 'e')
    (hr' : r'.head? = some 'i' ∨ r'.head? = some 'e') : u = u' ∧ r = r' := by
  have hends : ∀ {r : List Char}, r.head? = some 'i' ∨ r.head? = some 'e' → ∀ c ∈ r.head?,
      (whitespace c || oneOf [';', '\x7d', '\r', '\n'] c) = false := by
    rintro r (hr | hr) c hc
    · rw [hr] at hc
      cases hc
      rfl
    · rw [hr] at hc
      cases hc
      rfl
  exact run_unique heq h.class h'.class (hends hr) (hends hr')

theorem mem_front {ms : List Matcher} : t ∈ sequence (opening :: many whitespace :: ms) s ↔
    ∃ u rest, s.rest = u ++ rest ∧ Front s.prev u ∧ t ∈ sequence ms (s.after u rest) := by
  simp only [mem_cons, mem_many]
  constructor
  · rintro ⟨v, hv, -, ⟨w, rest, heq, hw, rfl⟩, ht⟩
    rcases mem_either.mp hv with hv | hv
    · obtain ⟨hprev, rfl⟩ := mem_start.mp hv
      exact ⟨w, rest, heq, ⟨[], w, rfl, hw, .inl ⟨hprev, rfl⟩⟩, ht⟩
    · obtain ⟨c, cs, hcs, hc, rfl⟩ := mem_one.mp hv
      have hrest : cs = w ++ rest := heq
      rw [State.after_after] at ht
      exact ⟨[c] ++ w, rest, by rw [hcs, hrest]; rfl, ⟨[c], w, rfl, hw, .inr ⟨c, rfl, hc⟩⟩, ht⟩
  · rintro ⟨u, rest, heq, ⟨lead, w, rfl, hw, hlead⟩, ht⟩
    rcases hlead with ⟨hprev, rfl⟩ | ⟨c, rfl, hc⟩
    · exact ⟨s, mem_either.mpr (.inl (mem_start.mpr ⟨hprev, rfl⟩)), _, ⟨w, rest, heq, hw, rfl⟩, ht⟩
    · refine ⟨s.after [c] (w ++ rest), mem_either.mpr (.inr (mem_one.mpr ⟨c, _, heq, hc, rfl⟩)), _,
        ⟨w, rest, rfl, hw, rfl⟩, ?_⟩
      rwa [State.after_after]

end

/-! ## What the expressions find -/

section

variable {prev : Option Char} {cs : List Char} {t : State}

/-- What an expression finds, where at most one match ends anywhere. -/
theorem finds_of_unique {B : Match}
    (hmem : ∀ prev cs t, t ∈ m ⟨prev, cs, []⟩ ↔ B prev cs t)
    (hunique : ∀ prev cs t t', B prev cs t → B prev cs t' → t = t') : Finds m B := by
  intro prev cs t
  rw [← hmem]
  constructor
  · exact List.mem_of_head?
  · intro ht
    cases hlist : m ⟨prev, cs, []⟩ with
    | nil =>
        rw [hlist] at ht
        cases ht
    | cons t' ts =>
        have hfirst : t' ∈ m ⟨prev, cs, []⟩ := by
          rw [hlist]
          exact List.mem_cons_self ..
        rw [List.head?_cons, hunique prev cs t' t ((hmem _ _ _).mp hfirst) ((hmem _ _ _).mp ht)]

theorem finds_bareImport : Finds bareImport BareImport := by
  refine finds_of_unique (fun prev cs t => ?_) fun prev cs t t' h h' => ?_
  · rw [bareImport, ← List.append_nil quotedName, List.cons_append, List.cons_append,
      List.cons_append, List.cons_append, List.nil_append, mem_front]
    simp only [mem_text_cons, mem_many_cons, mem_quotedName, mem_nil, State.after]
    constructor
    · rintro ⟨u, _, rfl, hu, _, rfl, g, _, rfl, hg, q, x, rest, hquoted, rfl⟩
      exact .intro rfl hu hg hquoted
    · rintro ⟨rfl, hu, hg, hquoted⟩
      exact ⟨_, _, rfl, hu, _, rfl, _, _, rfl, hg, _, _, _, hquoted, rfl⟩
  · obtain ⟨heq, hu, hg, hquoted⟩ := h
    obtain ⟨heq', hu', hg', hquoted'⟩ := h'
    rw [heq] at heq'
    obtain ⟨-, heq⟩ := Front.unique heq' hu hu' (.inl rfl) (.inl rfl)
    obtain ⟨-, rfl⟩ := Quoted.blanks_unique (List.append_cancel_left heq) hg hg' hquoted hquoted'
    obtain ⟨rfl, rfl, rfl⟩ := hquoted.unique hquoted'
    rfl

theorem not_blank_bracket (h : c = '(' ∨ c = ')') : blank c = false := by
  rcases h with rfl | rfl <;> rfl

theorem finds_namedCall : Finds namedCall NamedCall := by
  refine finds_of_unique (fun prev cs t => ?_) fun prev cs t t' h h' => ?_
  · show t ∈ sequence (boundary :: text (chars "import") :: many blank :: text ['('] ::
      many blank :: (quotedName ++ [many blank, text [')']])) _ ↔ _
    rw [mem_cons]
    simp only [mem_boundary, mem_text_cons, mem_many_cons, mem_quotedName, mem_nil, State.after,
      List.singleton_append, and_assoc, exists_and_left, exists_eq_left]
    constructor
    · rintro ⟨hword, _, rfl, g, _, rfl, hg, _, rfl, g', r, rfl, hg', q, x, _, hquoted, g'', _, rfl,
        hg'', rest, rfl, rfl⟩
      refine .intro rfl ?_ hg hg' hg'' hquoted
      have hfirst : (chars "import" ++ (g ++ '(' :: (g' ++ r))).head?.any wordChar = true := rfl
      rw [hfirst, ne_eq, Bool.not_eq_true] at hword
      exact hword
    · rintro ⟨rfl, hprev, hg, hg', hg'', hquoted⟩
      refine ⟨?_, _, rfl, _, _, rfl, hg, _, rfl, _, _, rfl, hg', _, _, _, hquoted, _, _, rfl, hg'',
        _, rfl, rfl⟩
      rw [hprev]
      exact Bool.false_ne_true
  · obtain ⟨heq, -, hg, hg', hg'', hquoted⟩ := h
    obtain ⟨heq', -, hk, hk', hk'', hquoted'⟩ := h'
    rw [heq] at heq'
    have hbracket : ∀ (d : Char), d = '(' ∨ d = ')' → ∀ l : List Char, ∀ c ∈ (d :: l).head?,
        blank c = false := by
      rintro d hd l c ⟨⟩
      exact not_blank_bracket hd
    obtain ⟨-, heq⟩ := run_unique (List.append_cancel_left heq') hg hk (hbracket _ (.inl rfl) _)
      (hbracket _ (.inl rfl) _)
    rw [List.cons.injEq] at heq
    obtain ⟨-, rfl⟩ := Quoted.blanks_unique heq.2 hg' hk' hquoted hquoted'
    obtain ⟨rfl, rfl, hrest⟩ := hquoted.unique hquoted'
    obtain ⟨-, hrest⟩ := run_unique hrest hg'' hk'' (hbracket _ (.inr rfl) _)
      (hbracket _ (.inr rfl) _)
    rw [List.cons.injEq] at hrest
    rw [hrest.2]

theorem mem_tail : t ∈ sequence ([some1 blank, text (chars "from"), many blank] ++ quotedName)
    ⟨prev, cs, []⟩ ↔ Tail cs t := by
  show t ∈ sequence (some1 blank :: text (chars "from") :: many blank :: (quotedName ++ [])) _ ↔ _
  rw [mem_cons]
  constructor
  · rintro ⟨v, hv, ht⟩
    obtain ⟨h, rest, rfl, hne, hh, rfl⟩ := mem_some1.mp hv
    simp only [mem_text_cons, mem_many_cons, mem_quotedName, mem_nil, State.after] at ht
    obtain ⟨_, rfl, g, _, rfl, hg, q, x, r, hquoted, rfl⟩ := ht
    exact .intro rfl hne hh hg hquoted
  · rintro ⟨rfl, hne, hh, hg, hquoted⟩
    refine ⟨_, mem_some1.mpr ⟨_, _, rfl, hne, hh, rfl⟩, ?_⟩
    simp only [mem_text_cons, mem_many_cons, mem_quotedName, mem_nil, State.after]
    exact ⟨_, rfl, _, _, rfl, hg, _, _, _, hquoted, rfl⟩

theorem Tail.unique {t' : State} (h : Tail cs t) (h' : Tail cs t') : t = t' := by
  obtain ⟨heq, -, hh, hg, hquoted⟩ := h
  obtain ⟨heq', -, hh', hg', hquoted'⟩ := h'
  rw [heq] at heq'
  have hfrom : ∀ r : List Char, ∀ c ∈ (chars "from" ++ r).head?, blank c = false := by
    rintro r c ⟨⟩
    rfl
  obtain ⟨-, heq⟩ := run_unique heq' hh hh' (hfrom _) (hfrom _)
  obtain ⟨-, rfl⟩ := Quoted.blanks_unique (List.append_cancel_left heq) hg hg' hquoted hquoted'
  obtain ⟨rfl, rfl, rfl⟩ := hquoted.unique hquoted'
  rfl

/-- The end of a clause, after something on the line. -/
def upTo : Matcher := (lazy lineChar).andThen
  (sequence ([some1 blank, text (chars "from"), many blank] ++ quotedName))

theorem tail_nil : sequence ([some1 blank, text (chars "from"), many blank] ++ quotedName)
    ⟨prev, cs, []⟩ = [] ↔ ∀ t, ¬ Tail cs t := by
  rw [List.eq_nil_iff_forall_not_mem]
  exact forall_congr' fun t => not_congr mem_tail

theorem tail_head : (sequence ([some1 blank, text (chars "from"), many blank] ++ quotedName)
    ⟨prev, cs, []⟩).head? = some t ↔ Tail cs t := by
  refine ⟨fun h => mem_tail.mp (List.mem_of_head? h), fun h => ?_⟩
  obtain ⟨t', hfirst⟩ : ∃ t', (sequence _ ⟨prev, cs, []⟩).head? = some t' :=
    Option.isSome_iff_exists.mp (List.isSome_head?.mpr (List.ne_nil_of_mem (mem_tail.mpr h)))
  rw [hfirst, (mem_tail.mp (List.mem_of_head? hfirst)).unique h]

theorem head_upTo : (upTo ⟨prev, cs, []⟩).head? = some t ↔
    ∃ u rest, cs = u ++ rest ∧ Every lineChar u ∧ Tail rest t ∧
      ∀ u' rest' t', cs = u' ++ rest' → u'.length < u.length → ¬ Tail rest' t' := by
  rw [upTo, Matcher.andThen, head_lazy]
  refine exists_congr fun u => exists_congr fun rest => and_congr_right fun _ =>
    and_congr_right fun _ => and_congr tail_head ?_
  constructor
  · exact fun h u' rest' t' heq hlt => tail_nil.mp (h u' rest' heq hlt) t'
  · exact fun h u' rest' heq hlt => tail_nil.mpr fun t' => h u' rest' t' heq hlt

theorem upTo_nil : upTo ⟨prev, cs, []⟩ = [] ↔
    ∀ u rest t, cs = u ++ rest → Every lineChar u → ¬ Tail rest t := by
  rw [List.eq_nil_iff_forall_not_mem]
  constructor
  · intro h u rest t heq hu htail
    exact h t (mem_andThen.mpr ⟨_, mem_lazy.mpr ⟨u, rest, heq, hu, rfl⟩, mem_tail.mpr htail⟩)
  · intro h t ht
    obtain ⟨v, hv, ht⟩ := mem_andThen.mp ht
    obtain ⟨u, rest, heq, hu, rfl⟩ := mem_lazy.mp hv
    exact h u rest t heq hu (mem_tail.mp ht)

theorem Blanks.unique {b' r r' : List Char} (h : Blanks cs b r) (h' : Blanks cs b' r') :
    b = b' ∧ r = r' :=
  run_unique (h.text.symm.trans h'.text) h.blank h'.blank h.ends h'.ends

theorem exists_blanks (hc : blank c = true) : ∃ b r, Blanks (c :: cs) b r := by
  refine ⟨(c :: cs).takeWhile blank, (c :: cs).dropWhile blank,
    (List.takeWhile_append_dropWhile ..).symm, ?_, fun d hd => List.mem_takeWhile_imp hd, ?_⟩
  · rw [List.takeWhile_cons_of_pos hc]
    exact List.cons_ne_nil _ _
  · intro d hd
    rw [Option.mem_def] at hd
    have hnot := List.head?_dropWhile_not blank (c :: cs)
    rw [hd] at hnot
    simpa using hnot

/-- The end of a clause within blanks is one right after them. -/
theorem Tail.of_blanks {r : List Char} (h : Tail (b ++ r) t) (hb : Every blank b)
    (hr : ∀ c ∈ r.head?, blank c = false) (hc : blank c = true) : Tail (c :: r) t := by
  obtain ⟨heq, -, hh, hg, hquoted⟩ := h
  have hfrom : ∀ r : List Char, ∀ c ∈ (chars "from" ++ r).head?, blank c = false := by
    rintro r c ⟨⟩
    rfl
  obtain ⟨-, rfl⟩ := run_unique heq hb hh hr (hfrom _)
  exact .intro (h := [c]) rfl (List.cons_ne_nil _ _) (List.forall_mem_singleton.mpr hc) hg hquoted

theorem blank_line (hc : blank c = true) : lineChar c = true := by
  simp only [blank, oneOf, List.contains_eq_mem, List.mem_cons, List.not_mem_nil, or_false,
    decide_eq_true_eq] at hc
  rcases hc with rfl | rfl <;> rfl

/-- Where no end of a clause follows the blanks, the one that is found on the line is right at
their end. -/
theorem tail_within {r u rest : List Char} {d : Char} (hb : Every blank b)
    (hr : ∀ c ∈ r.head?, blank c = false) (hd : blank d = true)
    (hnone : ∀ u rest t, r = u ++ rest → Every lineChar u → ¬ Tail rest t)
    (heq : b ++ r = u ++ rest) (hu : Every lineChar u) (h : Tail rest t) : Tail (d :: r) t := by
  rcases List.append_eq_append_iff.mp heq with ⟨v, rfl, rfl⟩ | ⟨v, rfl, rfl⟩
  · exact absurd h (hnone v rest t rfl fun c hc => hu c (List.mem_append_right _ hc))
  · exact h.of_blanks (fun c hc => hb c (List.mem_append_right _ hc)) hr hd

theorem head_clause : ((some1 blank ⟨prev, cs, []⟩).flatMap upTo).head? = some t ↔ Clause cs t := by
  by_cases hexists : ∃ b r, Blanks cs b r
  · obtain ⟨b, r, hblanks⟩ := hexists
    obtain ⟨others, hlist, hsecond, hsingle⟩ := some1_run (s := ⟨prev, cs, []⟩)
      hblanks.text hblanks.nonempty hblanks.blank hblanks.ends
    rw [hlist, List.flatMap_cons, List.head?_append]
    cases hfirst : (upTo (State.after ⟨prev, cs, []⟩ b r)).head? with
    | some t' =>
        rw [Option.some_or, Option.some.injEq]
        have hhead := head_upTo.mp hfirst
        constructor
        · rintro rfl
          obtain ⟨u, rest, rfl, hu, htail, hleast⟩ := hhead
          exact .far hblanks hu htail fun u' rest' t' heq hlt => hleast u' rest' t' heq hlt
        · intro h
          cases h with
          | far hblanks' hu htail hleast =>
              obtain ⟨rfl, rfl⟩ := hblanks.unique hblanks'
              have hleft : (upTo (State.after ⟨prev, cs, []⟩ b _)).head? = some t :=
                head_upTo.mpr ⟨_, _, rfl, hu, htail, fun u' rest' t' heq hlt =>
                  hleast u' rest' t' heq hlt⟩
              rw [hfirst] at hleft
              exact Option.some.inj hleft
          | near hblanks' _ hno =>
              obtain ⟨rfl, rfl⟩ := hblanks.unique hblanks'
              obtain ⟨u, rest, heq, hu, htail, -⟩ := hhead
              exact absurd htail (hno u rest t' heq hu)
    | none =>
        have hnone : ∀ u rest t, r = u ++ rest → Every lineChar u → ¬ Tail rest t :=
          upTo_nil.mp (List.head?_eq_none_iff.mp hfirst)
        rw [Option.none_or]
        -- a far end is out of the question; one directly after the blanks needs two of them
        have hnear : Clause cs t ↔ ∃ v d, b = v ++ [d] ∧ v ≠ [] ∧ Tail (d :: r) t := by
          constructor
          · intro h
            cases h with
            | far hblanks' hu htail =>
                obtain ⟨rfl, rfl⟩ := hblanks.unique hblanks'
                exact absurd htail (hnone _ _ _ rfl hu)
            | near hblanks' hne _ htail =>
                obtain ⟨rfl, rfl⟩ := hblanks.unique hblanks'
                exact ⟨_, _, rfl, hne, htail⟩
          · rintro ⟨v, d, rfl, hne, htail⟩
            exact .near hblanks hne hnone htail
        rw [hnear]
        obtain ⟨v, d, rfl⟩ := (List.eq_nil_or_concat b).resolve_left hblanks.nonempty
        rw [List.concat_eq_append] at *
        have hd : blank d = true := hblanks.blank d (by simp)
        by_cases hv : v = []
        · subst hv
          rw [hsingle d rfl]
          refine iff_of_false (by simp) ?_
          rintro ⟨v, e, heq, hne, -⟩
          have hlength := congrArg List.length heq
          rw [List.length_append, List.length_append] at hlength
          exact hne (List.length_eq_zero_iff.mp (by simpa using hlength.symm))
        · obtain ⟨others', rfl⟩ := hsecond v d rfl hv
          have hunique : (∃ v' e, v ++ [d] = v' ++ [e] ∧ v' ≠ [] ∧ Tail (e :: r) t) ↔
              Tail (d :: r) t := by
            constructor
            · rintro ⟨v', e, heq, -, htail⟩
              obtain ⟨-, heq⟩ := List.append_inj' heq rfl
              cases heq
              exact htail
            · exact fun htail => ⟨v, d, rfl, hv, htail⟩
          rw [hunique, List.flatMap_cons, List.head?_append]
          by_cases htail : ∃ t', Tail (d :: r) t'
          · obtain ⟨t', htail⟩ := htail
            have hhead : (upTo (State.after ⟨prev, cs, []⟩ v (d :: r))).head? = some t' :=
              head_upTo.mpr ⟨[], d :: r, rfl, by simp [Every], htail, by simp⟩
            rw [hhead, Option.some_or, Option.some.injEq]
            constructor
            · rintro rfl
              exact htail
            · exact fun h => htail.unique h
          · -- an end within the blanks would be one right after them
            have hempty : ∀ w ∈ some1 blank ⟨prev, cs, []⟩, upTo w = [] := by
              intro w hw
              obtain ⟨u, rest, heq, -, hu, rfl⟩ := mem_some1.mp hw
              refine upTo_nil.mpr fun y rest' t' hrest hy hend => htail ⟨t', ?_⟩
              have htext : (v ++ [d]) ++ r = (u ++ y) ++ rest' := by
                have hcs : cs = u ++ rest := heq
                have hy' : rest = y ++ rest' := hrest
                rw [← hblanks.text, hcs, hy', List.append_assoc]
              exact tail_within hblanks.blank hblanks.ends hd hnone htext
                (List.forall_mem_append.mpr ⟨fun e he => blank_line (hu e he), hy⟩) hend
            have hothers : ∀ w ∈ others', upTo w = [] := by
              intro w hw
              exact hempty w (by rw [hlist]; exact .tail _ (.tail _ hw))
            have hsame : upTo (State.after ⟨prev, cs, []⟩ v (d :: r)) = [] :=
              hempty _ (by rw [hlist]; exact .tail _ (.head _))
            rw [hsame, List.flatMap_eq_nil_iff.mpr hothers]
            exact iff_of_false (by simp) fun h => htail ⟨t, h⟩
  · have hnil : some1 blank ⟨prev, cs, []⟩ = [] := by
      rw [List.eq_nil_iff_forall_not_mem]
      intro v hv
      obtain ⟨u, rest, heq, hne, hu, -⟩ := mem_some1.mp hv
      obtain ⟨d, u, rfl⟩ := List.exists_cons_of_ne_nil hne
      obtain rfl : cs = d :: (u ++ rest) := heq
      exact hexists (exists_blanks (hu d (List.mem_cons_self ..)))
    rw [hnil]
    refine iff_of_false (by simp) fun h => hexists ?_
    cases h with
    | far hblanks => exact ⟨_, _, hblanks⟩
    | near hblanks => exact ⟨_, _, hblanks⟩

def keyword : List Matcher :=
  [opening, many whitespace, either (text (chars "import")) (text (chars "export"))]

theorem mem_keyword : t ∈ sequence keyword ⟨prev, cs, []⟩ ↔
    ∃ u k r, cs = u ++ (chars k ++ r) ∧ Front prev u ∧ (k = "import" ∨ k = "export") ∧
      t = State.after ⟨prev, cs, []⟩ (u ++ chars k) r := by
  rw [keyword, mem_front]
  simp only [mem_cons, mem_nil, mem_either, mem_text, exists_eq_right']
  constructor
  · rintro ⟨u, _, rfl, hu, ⟨r, hr, rfl⟩ | ⟨r, hr, rfl⟩⟩
    · obtain rfl : _ = chars "import" ++ r := hr
      exact ⟨u, "import", r, rfl, hu, .inl rfl, State.after_after ..⟩
    · obtain rfl : _ = chars "export" ++ r := hr
      exact ⟨u, "export", r, rfl, hu, .inr rfl, State.after_after ..⟩
  · rintro ⟨u, k, r, rfl, hu, rfl | rfl, rfl⟩
    · exact ⟨u, _, rfl, hu, .inl ⟨r, rfl, (State.after_after ..).symm⟩⟩
    · exact ⟨u, _, rfl, hu, .inr ⟨r, rfl, (State.after_after ..).symm⟩⟩

/-- The keyword of a clause can be read in one way only. -/
theorem keyword_unique {u u' r r' : List Char} {k k' : String}
    (heq : u ++ (chars k ++ r) = u' ++ (chars k' ++ r')) (hu : Front prev u) (hu' : Front prev u')
    (hk : k = "import" ∨ k = "export") (hk' : k' = "import" ∨ k' = "export") :
    u = u' ∧ k = k' ∧ r = r' := by
  have hhead : ∀ {k : String}, k = "import" ∨ k = "export" → ∀ r : List Char,
      (chars k ++ r).head? = some 'i' ∨ (chars k ++ r).head? = some 'e' := by
    rintro k (rfl | rfl) r
    · exact .inl rfl
    · exact .inr rfl
  obtain ⟨rfl, hrest⟩ := Front.unique heq hu hu' (hhead hk r) (hhead hk' r')
  have hkeyword : k = k' := by
    have hfirst := congrArg List.head? hrest
    rcases hk with rfl | rfl <;> rcases hk' with rfl | rfl
    · rfl
    · cases hfirst
    · cases hfirst
    · rfl
  subst hkeyword
  exact ⟨rfl, rfl, List.append_cancel_left hrest⟩

/-- Where everything that is found first is one place, what follows is found from there. -/
theorem head_flatMap {s : State} {l : List State} (hs : s ∈ l)
    (h : ∀ s' ∈ l, s' = s) : (l.flatMap m).head? = (m s).head? := by
  obtain ⟨s', l, rfl⟩ := List.exists_cons_of_ne_nil (List.ne_nil_of_mem hs)
  obtain rfl := h s' (List.mem_cons_self ..)
  rw [List.flatMap_cons, List.head?_append]
  cases hm : m s' with
  | cons t ts => rfl
  | nil =>
      have hrest : l.flatMap m = [] := by
        rw [List.flatMap_eq_nil_iff]
        intro s hs
        rw [h s (List.mem_cons_of_mem _ hs), hm]
      rw [hrest]
      rfl

theorem finds_fromClause : Finds fromClause FromClause := by
  intro prev cs t
  have hsplit : fromClause ⟨prev, cs, []⟩ = (sequence keyword ⟨prev, cs, []⟩).flatMap
      fun s => (some1 blank s).flatMap upTo := sequence_append keyword
        ([some1 blank, lazy lineChar, some1 blank, text (chars "from"), many blank] ++ quotedName) _
  rw [hsplit]
  by_cases hfront : ∃ u k r, cs = u ++ (chars k ++ r) ∧ Front prev u ∧ (k = "import" ∨ k = "export")
  · obtain ⟨u, k, r, heq, hu, hk⟩ := hfront
    have hplace := mem_keyword.mpr ⟨u, k, r, heq, hu, hk, rfl⟩
    rw [head_flatMap hplace]
    · show ((some1 blank ⟨_, r, []⟩).flatMap upTo).head? = some t ↔ _
      rw [head_clause]
      constructor
      · exact .intro heq hu hk
      · rintro ⟨heq', hu', hk', hclause⟩
        obtain ⟨-, -, rfl⟩ := keyword_unique (heq.symm.trans heq') hu hu' hk hk'
        exact hclause
    · intro s hs
      obtain ⟨u', k', r', heq', hu', hk', rfl⟩ := mem_keyword.mp hs
      obtain ⟨rfl, rfl, rfl⟩ := keyword_unique (heq.symm.trans heq') hu hu' hk hk'
      rfl
  · have hnil : sequence keyword ⟨prev, cs, []⟩ = [] := by
      rw [List.eq_nil_iff_forall_not_mem]
      intro s hs
      obtain ⟨u, k, r, heq, hu, hk, -⟩ := mem_keyword.mp hs
      exact hfront ⟨u, k, r, heq, hu, hk⟩
    rw [hnil]
    refine iff_of_false nofun ?_
    rintro ⟨heq, hu, hk, -⟩
    exact hfront ⟨_, _, _, heq, hu, hk⟩

/-! ## Reading goes on -/

theorem Quoted.less {r x rest : List Char} {q : Char} (h : Quoted r q x rest) :
    rest.length < r.length := by
  rw [h.text]
  simp only [List.length_cons, List.length_append]
  omega

theorem BareImport.less (h : BareImport prev cs t) : t.rest.length < cs.length := by
  obtain ⟨rfl, -, -, hquoted⟩ := h
  have hless := hquoted.less
  simp only [List.length_append]
  omega

theorem NamedCall.less (h : NamedCall prev cs t) : t.rest.length < cs.length := by
  obtain ⟨rfl, -, -, -, -, hquoted⟩ := h
  have hless := hquoted.less
  simp only [List.length_append, List.length_cons] at hless ⊢
  omega

theorem Tail.less (h : Tail cs t) : t.rest.length < cs.length := by
  obtain ⟨rfl, -, -, -, hquoted⟩ := h
  have hless := hquoted.less
  simp only [List.length_append]
  omega

theorem Clause.less (h : Clause cs t) : t.rest.length < cs.length := by
  cases h with
  | far hblanks _ htail =>
      have hless := htail.less
      rw [hblanks.text]
      simp only [List.length_append]
      omega
  | near hblanks hne _ htail =>
      have hless := htail.less
      have hpos := List.length_pos_iff.mpr hne
      rw [hblanks.text]
      simp only [List.length_append, List.length_cons] at hless ⊢
      omega

theorem FromClause.less (h : FromClause prev cs t) : t.rest.length < cs.length := by
  obtain ⟨rfl, -, -, hclause⟩ := h
  have hless := hclause.less
  simp only [List.length_append]
  omega

end

/-! ## What is found in a source -/

/-- A call of `import` with anything. -/
def DynamicImport (source : List Char) : Prop :=
  ∃ before g after, source = before ++ (chars "import" ++ (g ++ '(' :: after)) ∧
    before.getLast?.any wordChar = false ∧ Every blank g

def memberChar (c : Char) : Bool := wordChar c || c == '$' || c == '.'

/-- A call of `require`, which is no method. -/
def CommonRequire (source : List Char) : Prop :=
  ∃ before g after, source = before ++ (chars "require" ++ (g ++ '(' :: after)) ∧
    before.getLast?.any memberChar = false ∧ Every blank g

/-- What a source is seen to depend on.  Each of the three layouts is looked for from the beginning
on, and after a layout from its end on. -/
inductive Seen (source : List Char) : String → Prop where
  | bare {t : State} : Met BareImport none source t →
      Seen source (String.ofList (t.groups.getD 1 []))
  | clause {t : State} : Met FromClause none source t →
      Seen source (String.ofList (t.groups.getD 1 []))
  | call {t : State} : Met NamedCall none source t →
      Seen source (String.ofList (t.groups.getD 1 []))
  | dynamic : DynamicImport source → Seen source "<dynamic-import>"
  | require : CommonRequire source → Seen source "<commonjs-require>"

section

variable {source : List Char}

theorem mem_namesOf {B : Match} {name : List Char} (h : Finds m B)
    (hless : ∀ prev cs t, B prev cs t → t.rest.length < cs.length) :
    name ∈ namesOf m source ↔ ∃ t, Met B none source t ∧ t.groups.getD 1 [] = name := by
  rw [namesOf, List.mem_map]
  exact exists_congr fun t => and_congr_left fun _ =>
    mem_findAll h hless (source.length + 1) (Nat.lt_succ_self _)

theorem call_ne_nil {s : State} :
    sequence [m, text (chars name), many blank, text ['(']] s ≠ [] ↔
      ∃ u ∈ m s, ∃ g rest, u.rest = chars name ++ (g ++ '(' :: rest) ∧ Every blank g := by
  constructor
  · intro h
    obtain ⟨t, ht⟩ := List.exists_mem_of_ne_nil _ h
    obtain ⟨u, hu, ht⟩ := mem_cons.mp ht
    simp only [mem_text_cons, mem_many_cons, State.after] at ht
    obtain ⟨_, hr, g, _, rfl, hg, rest, rfl, -⟩ := ht
    exact ⟨u, hu, g, rest, hr, hg⟩
  · rintro ⟨u, hu, g, rest, heq, hg⟩
    exact List.ne_nil_of_mem (mem_cons.mpr ⟨u, hu, mem_text_cons.mpr ⟨_, heq, mem_many_cons.mpr
      ⟨_, _, rfl, hg, mem_text_cons.mpr ⟨_, rfl, mem_nil.mpr rfl⟩⟩⟩⟩)

theorem test_dynamicImport : test dynamicImport source = true ↔ DynamicImport source := by
  rw [test_iff]
  simp only [dynamicImport, call_ne_nil, mem_boundary]
  constructor
  · rintro ⟨before, after, rfl, -, ⟨hword, rfl⟩, g, rest, heq, hg⟩
    obtain rfl : after = chars "import" ++ (g ++ '(' :: rest) := heq
    refine ⟨before, g, rest, rfl, ?_, hg⟩
    have hfirst : (chars "import" ++ (g ++ '(' :: rest)).head?.any wordChar = true := rfl
    rw [hfirst, ne_eq, Bool.not_eq_true] at hword
    exact hword
  · rintro ⟨before, g, rest, rfl, hbefore, hg⟩
    refine ⟨before, _, rfl, _, ⟨?_, rfl⟩, g, rest, rfl, hg⟩
    show before.getLast?.any wordChar ≠ true
    rw [hbefore]
    exact Bool.false_ne_true

theorem test_commonRequire : test commonRequire source = true ↔ CommonRequire source := by
  rw [test_iff]
  simp only [commonRequire, call_ne_nil, mem_either, mem_start, mem_one]
  constructor
  · rintro ⟨before, after, rfl, u, ⟨hbefore, rfl⟩ | ⟨c, cs, heq, hc, rfl⟩, g, rest, hrest, hg⟩
    · obtain rfl : after = chars "require" ++ (g ++ '(' :: rest) := hrest
      exact ⟨before, g, rest, rfl, by rw [hbefore]; rfl, hg⟩
    · obtain rfl : after = c :: cs := heq
      obtain rfl : cs = chars "require" ++ (g ++ '(' :: rest) := hrest
      refine ⟨before ++ [c], g, rest, (List.append_assoc before [c] _).symm, ?_, hg⟩
      rw [List.getLast?_append]
      simpa [memberChar] using hc
  · rintro ⟨before, g, rest, rfl, hbefore, hg⟩
    rcases List.eq_nil_or_concat before with rfl | ⟨before, c, rfl⟩
    · exact ⟨[], _, rfl, _, .inl ⟨rfl, rfl⟩, g, rest, rfl, hg⟩
    · rw [List.concat_eq_append] at hbefore ⊢
      refine ⟨before, c :: _, List.append_assoc before [c] _, _, .inr ⟨c, _, rfl, ?_, rfl⟩, g, rest,
        rfl, hg⟩
      rw [List.getLast?_append] at hbefore
      simpa [memberChar] using hbefore

theorem mem_foldl_addName {names : List String} : ∀ {known : List String},
    name ∈ names.foldl addName known ↔ name ∈ known ∨ name ∈ names := by
  induction names with
  | nil => simp
  | cons first names ih =>
      intro known
      rw [List.foldl_cons, ih, List.mem_cons, addName]
      split_ifs with h
      · constructor
        · rintro (hname | hname)
          · exact .inl hname
          · exact .inr (.inr hname)
        · rintro (hname | rfl | hname)
          · exact .inl hname
          · exact .inl h
          · exact .inr hname
      · rw [List.mem_append, List.mem_singleton, or_assoc]

theorem mem_moduleDependencySpecifiers {source : String} :
    name ∈ moduleDependencySpecifiers source ↔ Seen (chars source) name := by
  have hbare : ∀ name, name ∈ namesOf bareImport (chars source) ↔ _ := fun _ =>
    mem_namesOf finds_bareImport fun _ _ _ => BareImport.less
  have hclause : ∀ name, name ∈ namesOf fromClause (chars source) ↔ _ := fun _ =>
    mem_namesOf finds_fromClause fun _ _ _ => FromClause.less
  have hcall : ∀ name, name ∈ namesOf namedCall (chars source) ↔ _ := fun _ =>
    mem_namesOf finds_namedCall fun _ _ _ => NamedCall.less
  rw [moduleDependencySpecifiers, mem_foldl_addName]
  simp only [List.not_mem_nil, false_or, List.mem_append, List.mem_map, List.flatMap_cons,
    List.flatMap_nil, or_false]
  constructor
  · rintro ((⟨x, hx | hx | hx, rfl⟩ | hdynamic) | hrequire)
    · obtain ⟨t, ht, rfl⟩ := (hbare x).mp hx
      exact .bare ht
    · obtain ⟨t, ht, rfl⟩ := (hclause x).mp hx
      exact .clause ht
    · obtain ⟨t, ht, rfl⟩ := (hcall x).mp hx
      exact .call ht
    · split_ifs at hdynamic with h
      · rw [List.mem_singleton.mp hdynamic]
        exact .dynamic (test_dynamicImport.mp h)
      · cases hdynamic
    · split_ifs at hrequire with h
      · rw [List.mem_singleton.mp hrequire]
        exact .require (test_commonRequire.mp h)
      · cases hrequire
  · intro h
    cases h with
    | bare ht => exact .inl (.inl ⟨_, .inl ((hbare _).mpr ⟨_, ht, rfl⟩), rfl⟩)
    | clause ht => exact .inl (.inl ⟨_, .inr (.inl ((hclause _).mpr ⟨_, ht, rfl⟩)), rfl⟩)
    | call ht => exact .inl (.inl ⟨_, .inr (.inr ((hcall _).mpr ⟨_, ht, rfl⟩)), rfl⟩)
    | dynamic h =>
        rw [if_pos (test_dynamicImport.mpr h)]
        exact .inl (.inr (List.mem_singleton_self _))
    | require h =>
        rw [if_pos (test_commonRequire.mpr h)]
        exact .inr (List.mem_singleton_self _)

end

/-- What is returned is what is seen, whether a declaration stands there or not, and an entry is
taken for closed if nothing is seen in it. -/
theorem dependency_found_iff (source name : String) :
    (name ∈ moduleDependencySpecifiers source ↔ Seen (chars source) name) ∧
    (moduleDependencySpecifiers source = [] ↔ ∀ name, ¬ Seen (chars source) name) := by
  refine ⟨mem_moduleDependencySpecifiers, ?_⟩
  rw [List.eq_nil_iff_forall_not_mem]
  exact forall_congr' fun name => not_congr mem_moduleDependencySpecifiers

/-! ## Declarations -/

def lineEnd : Char → Bool := oneOf ['\n', '\r', '\u2028', '\u2029']

/-- What may stand between two tokens: white space, ends of lines and comments. -/
inductive Gap : List Char → Prop where
  | nil : Gap []
  | space {c : Char} {g : List Char} : (whitespace c || lineEnd c) = true → Gap g → Gap (c :: g)
  | comment {u g : List Char} : ¬ chars "*/" <:+: u → Gap g →
      Gap (chars "/*" ++ (u ++ (chars "*/" ++ g)))
  | line {u g : List Char} {c : Char} : Every (fun d => !lineEnd d) u → lineEnd c = true → Gap g →
      Gap (chars "//" ++ (u ++ c :: g))

def identifierChar (c : Char) : Bool := wordChar c || c == '$'

def Identifier (t : List Char) : Prop :=
  t ≠ [] ∧ Every identifierChar t ∧ t.head?.any Char.isDigit = false

def Literal (t : List Char) (name : String) : Prop :=
  ∃ q, quote q = true ∧ t = q :: (chars name ++ [q]) ∧
    ∀ c ∈ chars name, c ≠ q ∧ c ≠ '\\' ∧ c ≠ '\n' ∧ c ≠ '\r'

/-- Tokens are laid out with gaps between them.  Two words are not run together. -/
inductive Laid : List (List Char) → List Char → Prop where
  | last {t : List Char} : Laid [t] t
  | more {t u g cs : List Char} {ts : List (List Char)} : Gap g →
      (g = [] → t.getLast?.any identifierChar = false ∨ u.head?.any identifierChar = false) →
      Laid (u :: ts) cs → Laid (t :: u :: ts) (t ++ (g ++ cs))

/-- What an import or an export names: a default, a namespace, a list, or a default and one of the
other two. -/
inductive Names : List (List Char) → Prop where
  | default {x : List Char} : Identifier x → Names [x]
  | all : Names [chars "*"]
  | space {x : List Char} : Identifier x → Names [chars "*", chars "as", x]
  | list {ts : List (List Char)} : (∀ t ∈ ts, Identifier t ∨ t = chars ",") →
      Names (chars "\x7b" :: (ts ++ [chars "\x7d"]))
  | both {x : List Char} {ts : List (List Char)} : Identifier x → Names ts →
      Names (x :: chars "," :: ts)

inductive Declares : List (List Char) → String → Prop where
  | bare {t : List Char} {name : String} : Literal t name → Declares [chars "import", t] name
  | clause {t : List Char} {ts : List (List Char)} {name : String} : Names ts → Literal t name →
      Declares (chars "import" :: (ts ++ [chars "from", t])) name
  | export {t : List Char} {ts : List (List Char)} {name : String} : Names ts → Literal t name →
      Declares (chars "export" :: (ts ++ [chars "from", t])) name
  | call {t : List Char} {name : String} : Literal t name →
      Declares [chars "import", chars "(", t, chars ")"] name

def Declaration (source : List Char) (name : String) : Prop :=
  ∃ ts, Laid ts source ∧ Declares ts name

theorem dependency_not_found :
    Declaration (chars "import\x7ba\x7dfrom\"x\"") "x" ∧
      moduleDependencySpecifiers "import\x7ba\x7dfrom\"x\"" = [] := by
  refine ⟨⟨[chars "import", chars "\x7b", chars "a", chars "\x7d", chars "from", chars "\"x\""],
    ?_, ?_⟩, by decide⟩
  · exact .more .nil (fun _ => .inr rfl) (.more .nil (fun _ => .inl rfl)
      (.more .nil (fun _ => .inr rfl) (.more .nil (fun _ => .inl rfl)
      (.more .nil (fun _ => .inr rfl) .last))))
  · have hnames : Names [chars "\x7b", chars "a", chars "\x7d"] := by
      show Names (chars "\x7b" :: ([chars "a"] ++ [chars "\x7d"]))
      refine .list fun t ht => ?_
      rw [List.mem_singleton.mp ht]
      exact .inl ⟨List.cons_ne_nil _ _, List.forall_mem_singleton.mpr rfl, rfl⟩
    exact .clause hnames ⟨'\x22', rfl, rfl, List.forall_mem_singleton.mpr (by decide)⟩

end Extension
