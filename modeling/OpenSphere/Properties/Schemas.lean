import OpenSphere.Command.Schema

/-!
# The language of command schemas

What a schema of the closed subset is, and what an instance of it, are said without the validators.
The walk of `validateSchema` over a value is a list of what it meets, in the order in which it
meets it, and decides how the validator ends.
-/

open Js (Tree Utf16 Number literal)

namespace CommandSchema

variable {items s : Tree} {type : String} {keywords : List String} {hi : ℕ}
  {x : Except Failure Unit} {p q : Prop}

/-! ## Instances and schemas -/

def Listed (ms : Members) (v : Tree) : Prop := ∀ vs, get ms "enum" = some (.array vs) → v ∈ vs

def Typed (ms : Members) (type : String) : Prop := get ms "type" = some (.string (literal type))

/-- The value of a schema is at least, and at most, a number. -/
def Within (ms : Members) (x : ℚ) : Prop :=
  (∀ lo, finite (get ms "minimum") = some lo → lo ≤ x) ∧
    ∀ hi, finite (get ms "maximum") = some hi → x ≤ hi

inductive Instance : Tree → Tree → Prop where
  | string {ms : Members} {t : Utf16} : Typed ms "string" → Listed ms (.string t) →
      (∀ lo, natural (get ms "minLength") = some lo → lo ≤ t.length) →
      (∀ hi, natural (get ms "maxLength") = some hi → t.length ≤ hi) →
      (∀ f, get ms "format" = some (.string f) → ∃ r, formatOf f = some r ∧ test r t = true) →
      Instance (.object ms) (.string t)
  | integer {ms : Members} {x : Js.Double} : Typed ms "integer" →
      Listed ms (.number (.finite x)) → x.value.den = 1 → Within ms x.value →
      Instance (.object ms) (.number (.finite x))
  | number {ms : Members} {x : Js.Double} : Typed ms "number" →
      Listed ms (.number (.finite x)) → Within ms x.value →
      Instance (.object ms) (.number (.finite x))
  | boolean {ms : Members} {b : Bool} : Typed ms "boolean" → Listed ms (.boolean b) →
      Instance (.object ms) (.boolean b)
  | array {ms : Members} {items : Tree} {xs : List Tree} : Typed ms "array" →
      get ms "items" = some items → Listed ms (.array xs) →
      (∀ lo, natural (get ms "minItems") = some lo → lo ≤ xs.length) →
      (∀ hi, natural (get ms "maxItems") = some hi → xs.length ≤ hi) →
      (∀ x ∈ xs, Instance items x) → Instance (.object ms) (.array xs)
  | object {ms vs : Members} : Typed ms "object" → Listed ms (.object vs) →
      (∀ k ∈ Tree.keys vs, k ∈ Tree.keys (propertiesOf ms)) →
      (∀ r ∈ requiredOf ms, ∃ k ∈ Tree.keys vs, r = .string k) →
      (∀ k child v, (propertiesOf ms).lookup k = some child → (k, v) ∈ vs → Instance child v) →
      Instance (.object ms) (.object vs)

structure Head (ms : Members) (type : String) (keywords : List String) : Prop where
  typed : Typed ms type
  keywords : ∀ k ∈ Tree.keys ms, ∃ n ∈ ["type", "description", "enum"] ++ keywords, literal n = k
  description : ∀ d, get ms "description" = some d → ∃ t, d = .string t ∧ t.length ≤ 500

/-- An enumeration has 1 to 64 different primitive values that conform to the schema. -/
def Enumeration (ms : Members) : Prop :=
  ∀ e, get ms "enum" = some e → ∃ vs, e = .array vs ∧ vs ≠ [] ∧ vs.length ≤ 64 ∧ vs.Nodup ∧
    ∀ v ∈ vs, primitive v = true ∧ Instance (.object (withoutEnum ms)) v

/-- A lower bound is a natural number below the upper bound. -/
def Lower (x : Option Tree) (hi : ℕ) : Prop := ∀ y, x = some y → ∃ lo, natural (some y) = some lo ∧ lo ≤ hi

def Range (ms : Members) : Prop :=
  ∃ lo hi, finite (get ms "minimum") = some lo ∧ finite (get ms "maximum") = some hi ∧ lo ≤ hi ∧
    |lo| ≤ Js.maxSafeInteger ∧ |hi| ≤ Js.maxSafeInteger

/-- The bounds of a type that has no parts, and its keywords. -/
inductive Leaf : String → List String → Members → Prop where
  | string {ms : Members} {hi : ℕ} : natural (get ms "maxLength") = some hi → 1 ≤ hi ∧ hi ≤ 4096 →
      Lower (get ms "minLength") hi →
      (∀ f, get ms "format" = some f → ∃ t r, f = .string t ∧ formatOf t = some r) →
      Leaf "string" ["minLength", "maxLength", "format"] ms
  | integer {ms : Members} : Range ms → Leaf "integer" ["minimum", "maximum"] ms
  | number {ms : Members} : Range ms → Leaf "number" ["minimum", "maximum"] ms
  | boolean {ms : Members} : Leaf "boolean" [] ms

inductive Valid : ℕ → Tree → Prop where
  | leaf {d : ℕ} {type : String} {keywords : List String} {ms : Members} : Leaf type keywords ms →
      Head ms type keywords → Enumeration ms → Valid (d + 1) (.object ms)
  | array {d hi : ℕ} {ms : Members} {items : Tree} :
      Head ms "array" ["items", "minItems", "maxItems"] → get ms "enum" = none →
      natural (get ms "maxItems") = some hi → hi ≤ 64 → Lower (get ms "minItems") hi →
      get ms "items" = some items → Valid d items → Valid (d + 1) (.object ms)
  | object {d : ℕ} {ms ps : Members} {rs : List Tree} :
      Head ms "object" ["properties", "required", "additionalProperties"] → get ms "enum" = none →
      get ms "additionalProperties" = some (.boolean false) →
      get ms "properties" = some (.object ps) → ps.length ≤ 32 →
      get ms "required" = some (.array rs) → rs.Nodup →
      (∀ r ∈ rs, ∃ k ∈ Tree.keys ps, r = .string k) →
      (∀ k ∈ Tree.keys ps, safeField k = true) → (∀ p ∈ ps, Valid d p.2) →
      Valid (d + 1) (.object ms)

/-- The number of nodes in so many levels of a schema. -/
def nodes : ℕ → Tree → ℕ
  | 0, _ => 0
  | d + 1, s =>
      1 + if isText "object" (get (membersOf s) "type") then
        ((propertiesOf (membersOf s)).map fun p => nodes d p.2).sum
      else if isText "array" (get (membersOf s) "type") then
        ((get (membersOf s) "items").map (nodes d)).getD 0
      else 0

def Schema (s : Tree) : Prop := Valid 7 s ∧ nodes 7 s ≤ 256

/-! ## The walk -/

inductive Event where
  | visit
  /-- A rule is broken, which the validator sees. -/
  | broken
  /-- A type or a format is a list that is taken for a name. -/
  | coerced
  /-- A type is the name of a property that every object inherits, or a type or a format has no
  text. -/
  | fatal
deriving DecidableEq

def rule (b : Bool) : List Event := if b then [] else [.broken]

/-- `typeof x === 'string'`. -/
def isString : Option Tree → Bool
  | some (.string _) => true
  | _ => false

def headEvents (ms : Members) : List Event :=
  match typeKey ms with
  | none => [.fatal]
  | some key =>
      match fieldsOf key with
      | .missing => [.broken]
      | .inherited => [.fatal]
      | .keywords names => (if isString (get ms "type") then [] else [.coerced]) ++
          rule (closed ms names && described ms && enumValid ms)

def formatEvents (ms : Members) : List Event :=
  match get ms "format" with
  | none => []
  | some f =>
      match toText f with
      | none => [.fatal]
      | some key => (if isString (some f) then [] else [.coerced]) ++ rule (formatOf key).isSome

/-- What is met in the checks of a type.  `child` is the walk one level down. -/
def typeEvents (child : Option Tree → List Event) (ms : Members) : List Event :=
  if isText "object" (get ms "type") then
    rule (objectValid ms) ++
      (propertiesOf ms).flatMap fun p => rule (safeField p.1) ++ child (some p.2)
  else if isText "array" (get ms "type") then rule (arrayValid ms) ++ child (get ms "items")
  else if isText "string" (get ms "type") then rule (lengthsValid ms) ++ formatEvents ms
  else if isText "integer" (get ms "type") || isText "number" (get ms "type") then
    rule (rangeValid ms)
  else []

def walk : ℕ → Option Tree → List Event
  | left + 1, some (.object ms) =>
      .visit :: (headEvents ms ++ (typeEvents (walk left) ms ++ rule (enumConforms ms)))
  | _, _ => [.broken]

/-- The validator has stopped after so many nodes and these events. -/
def Ended (n : ℕ) (es : List Event) : Prop := .broken ∈ es ∨ 256 < n + es.count .visit

/-- Before a type or a format that fails otherwise, a rule is broken; and where a list is taken for
a name, some rule is broken. -/
def Orderly (es : List Event) : Prop :=
  (∀ before after, es = before ++ .fatal :: after → Ended 0 before) ∧ (.coerced ∈ es → Ended 0 es)

/-- How the validator ends after some events. -/
def settle : ℕ → List Event → Except (Option String) ℕ
  | n, [] => .ok n
  | n, .visit :: es =>
      if 256 < n + 1 then .error (some "CommandProviderUnavailable") else settle (n + 1) es
  | _, .broken :: _ => .error (some "CommandProviderUnavailable")
  | n, .coerced :: es => settle n es
  | _, .fatal :: _ => .error none

theorem settle_append (es fs : List Event) (n : ℕ) :
    settle n (es ++ fs) = (settle n es).bind fun m => settle m fs := by
  induction es generalizing n with
  | nil => rfl
  | cons e es ih =>
      cases e with
      | visit =>
          rw [List.cons_append, settle, settle]
          split_ifs
          · rfl
          · exact ih (n + 1)
      | broken => rfl
      | coerced => exact ih n
      | fatal => rfl

theorem settle_rule (b : Bool) (n : ℕ) : settle n (rule b) =
    if b then .ok n else .error (some "CommandProviderUnavailable") := by
  cases b <;> rfl

/-! ## The validator ends as the walk does -/

def codeOf {α : Type} (x : Except Failure α) : Except (Option String) α := x.mapError Failure.code

theorem codeOf_bind {α β : Type} (x : Except Failure α) (f : α → Except Failure β) :
    codeOf (x >>= f) = (codeOf x).bind fun a => codeOf (f a) := by
  cases x <;> rfl

theorem codeOf_checkHead (ms : Members) (n : ℕ) :
    (codeOf (checkHead ms)).map (fun _ => n) = settle n (headEvents ms) := by
  unfold checkHead headEvents
  cases typeKey ms with
  | none => rfl
  | some key =>
      dsimp only
      cases fieldsOf key with
      | missing => rfl
      | inherited => rfl
      | keywords names =>
          dsimp only
          have hskip : settle n ((if isString (get ms "type") then [] else [.coerced]) ++
              rule (closed ms names && described ms && enumValid ms)) =
                settle n (rule (closed ms names && described ms && enumValid ms)) := by
            split_ifs <;> rfl
          rw [hskip, settle_rule]
          cases closed ms names <;> cases described ms <;> cases enumValid ms <;> rfl

theorem codeOf_checkFormat (ms : Members) (n : ℕ) :
    codeOf ((checkFormat ms).map fun _ => n) = settle n (formatEvents ms) := by
  unfold checkFormat formatEvents
  cases get ms "format" with
  | none => rfl
  | some f =>
      dsimp only
      cases toText f with
      | none => rfl
      | some key =>
          dsimp only
          have hskip : settle n ((if isString (some f) then [] else [.coerced]) ++
              rule (formatOf key).isSome) = settle n (rule (formatOf key).isSome) := by
            split_ifs <;> rfl
          rw [hskip, settle_rule]
          cases (formatOf key).isSome <;> rfl

theorem codeOf_checkType {child : ℕ → Option Tree → Except Failure ℕ}
    {events : Option Tree → List Event}
    (hchild : ∀ n s, codeOf (child n s) = settle n (events s)) (ms : Members) (n : ℕ) :
    codeOf (checkType child ms n) = settle n (typeEvents events ms) := by
  have hrule : ∀ (b : Bool) (n : ℕ) (es : List Event), settle n (rule b ++ es) =
      if b then settle n es else .error (some "CommandProviderUnavailable") := by
    intro b n es
    cases b <;> rfl
  have hfold : ∀ (ps : Members) (n : ℕ), codeOf (ps.foldlM (fun nodes p =>
      if safeField p.1 then child nodes (some p.2) else unavailable "Unsafe schema field") n) =
        settle n (ps.flatMap fun p => rule (safeField p.1) ++ events (some p.2)) := by
    intro ps
    induction ps with
    | nil => exact fun n => rfl
    | cons p ps ih =>
        intro n
        rw [List.foldlM_cons, codeOf_bind, List.flatMap_cons, settle_append, hrule]
        split_ifs
        · rw [hchild]
          exact congrArg _ (funext ih)
        · rfl
  unfold checkType typeEvents
  split_ifs with hobject hvalid harray hvalid hstring hvalid hnumber hvalid
  · rw [hrule, if_pos hvalid]
    exact hfold _ n
  · rw [hrule, if_neg hvalid]
    rfl
  · rw [hrule, if_pos hvalid]
    exact hchild n _
  · rw [hrule, if_neg hvalid]
    rfl
  · rw [hrule, if_pos hvalid]
    exact codeOf_checkFormat ms n
  · rw [hrule, if_neg hvalid]
    rfl
  · rw [settle_rule, if_pos hvalid]
    rfl
  · rw [settle_rule, if_neg hvalid]
    rfl
  · rfl

theorem codeOf_validateSchema (left : ℕ) : ∀ (n : ℕ) (s : Option Tree),
    codeOf (validateSchema left n s) = settle n (walk left s) := by
  induction left with
  | zero =>
      intro n s
      rfl
  | succ left ih =>
      intro n s
      match s with
      | some (.object ms) =>
          rw [validateSchema, walk, settle]
          by_cases hnodes : 256 < n + 1
          · rw [if_pos hnodes, if_pos hnodes]
            rfl
          · rw [if_neg hnodes, if_neg hnodes, settle_append, codeOf_bind,
              ← codeOf_checkHead ms (n + 1)]
            cases hhead : checkHead ms with
            | error f => rfl
            | ok u =>
                show codeOf (checkType _ ms (n + 1) >>= checkEnum ms) = settle (n + 1) _
                rw [codeOf_bind, codeOf_checkType ih, settle_append]
                refine congrArg _ (funext fun m => ?_)
                rw [settle_rule, checkEnum]
                split_ifs <;> rfl
      | none | some .null | some (.boolean b) | some (.number x) | some (.string t)
      | some (.array xs) => rfl

/-! ## How a walk ends -/

section

variable {n : ℕ} {es : List Event}

theorem settle_ok_iff (hn : n ≤ 256) : (∃ m, settle n es = .ok m) ↔ .fatal ∉ es ∧ ¬ Ended n es := by
  induction es generalizing n with
  | nil => simp [settle, Ended, hn]
  | cons e es ih =>
      cases e with
      | visit =>
          rw [settle]
          split_ifs with hover
          · constructor
            · rintro ⟨m, hm⟩
              cases hm
            · rintro ⟨-, hend⟩
              refine absurd (Or.inr ?_) hend
              rw [List.count_cons_self]
              omega
          · rw [ih (by omega)]
            simp [Ended, List.count_cons_self, Nat.add_assoc, Nat.add_comm 1]
      | broken =>
          constructor
          · rintro ⟨m, hm⟩
            cases hm
          · rintro ⟨-, hend⟩
            exact absurd (Or.inl (List.mem_cons_self ..)) hend
      | coerced =>
          rw [settle, ih hn]
          simp [Ended]
      | fatal =>
          constructor
          · rintro ⟨m, hm⟩
            cases hm
          · rintro ⟨hfatal, -⟩
            exact absurd (List.mem_cons_self ..) hfatal

theorem settle_ne_none_iff (hn : n ≤ 256) : settle n es ≠ .error none ↔
    ∀ before after, es = before ++ .fatal :: after → Ended n before := by
  induction es generalizing n with
  | nil => simp [settle]
  | cons e es ih =>
      -- a fatal event of the rest comes after `e`
      have hcons : ∀ P : List Event → Prop, e ≠ .fatal →
          ((∀ before after, e :: es = before ++ .fatal :: after → P before) ↔
            ∀ before after, es = before ++ .fatal :: after → P (e :: before)) := by
        intro P he
        constructor
        · intro h before after heq
          exact h (e :: before) after (by rw [heq]; rfl)
        · intro h before after heq
          cases before with
          | nil => exact absurd (List.head_eq_of_cons_eq heq) he
          | cons a before =>
              rw [List.cons_append, List.cons.injEq] at heq
              obtain ⟨rfl, heq⟩ := heq
              exact h before after heq
      cases e with
      | visit =>
          rw [settle, hcons _ (by decide)]
          split_ifs with hover
          · refine ⟨fun _ before after _ => .inr ?_, fun _ => by simp⟩
            rw [List.count_cons_self]
            omega
          · rw [ih (by omega)]
            simp [Ended, List.count_cons_self, Nat.add_assoc, Nat.add_comm 1]
      | broken =>
          rw [hcons _ (by decide)]
          refine ⟨fun _ before after _ => .inl (List.mem_cons_self ..), fun _ => by simp [settle]⟩
      | coerced =>
          rw [settle, ih hn, hcons _ (by decide)]
          simp [Ended]
      | fatal =>
          refine ⟨fun h => absurd rfl h, fun h => ?_⟩
          have hempty := h [] es rfl
          simp only [Ended, List.not_mem_nil, List.count_nil, false_or] at hempty
          omega

/-- An orderly walk is one that does not fail otherwise, and meets no list for a name where it
succeeds. -/
theorem orderly_iff : Orderly es ↔
    settle 0 es ≠ .error none ∧ ((∃ m, settle 0 es = .ok m) → .coerced ∉ es) := by
  rw [Orderly, settle_ne_none_iff (by omega), settle_ok_iff (by omega)]
  refine and_congr_right fun hfatal => ?_
  constructor
  · rintro h ⟨-, hend⟩ hcoerced
    exact hend (h hcoerced)
  · intro h hcoerced
    by_contra hend
    refine h ⟨?_, hend⟩ hcoerced
    intro hmem
    obtain ⟨before, after, rfl⟩ := List.append_of_mem hmem
    rcases hfatal before after rfl with hbroken | hover
    · exact hend (.inl (List.mem_append_left _ hbroken))
    · refine hend (.inr ?_)
      rw [List.count_append]
      omega

end

/-! ## Values of an enumeration -/

section

variable {ms : Members} {path : Utf16} {v : Tree}

theorem same_iff {x : Tree} (hx : primitive x = true) (y : Tree) : same x y = true ↔ x = y := by
  cases x <;> cases y <;> simp [primitive] at hx <;> simp [same]

theorem any_same_iff {vs : List Tree} (h : ∀ x ∈ vs, primitive x = true) (y : Tree) :
    vs.any (same · y) = true ↔ y ∈ vs := by
  rw [List.any_eq_true]
  constructor
  · rintro ⟨x, hx, hsame⟩
    rwa [← (same_iff (h x hx) y).mp hsame]
  · intro hy
    exact ⟨y, hy, (same_iff (h y hy) y).mpr rfl⟩

theorem distinct_iff {vs : List Tree} (h : ∀ x ∈ vs, primitive x = true) :
    distinct vs = true ↔ vs.Nodup := by
  induction vs with
  | nil => simp [distinct]
  | cons x vs ih =>
      obtain ⟨hx, hvs⟩ := List.forall_mem_cons.mp h
      have hany : vs.any (same x) = true ↔ x ∈ vs := by
        rw [List.any_eq_true]
        constructor
        · rintro ⟨y, hy, hsame⟩
          rwa [(same_iff hx y).mp hsame]
        · intro hmem
          exact ⟨x, hmem, (same_iff hx x).mpr rfl⟩
      rw [distinct, Bool.and_eq_true, ih hvs, List.nodup_cons, ← hany, Bool.not_eq_true',
        Bool.not_eq_true]

def PrimitiveEnum (ms : Members) : Prop :=
  ∀ vs, get ms "enum" = some (.array vs) → ∀ v ∈ vs, primitive v = true

theorem enumExcludes_iff (h : PrimitiveEnum ms) : enumExcludes ms v = false ↔ Listed ms v := by
  unfold enumExcludes Listed
  split
  next vs heq =>
    rw [Bool.not_eq_false', any_same_iff (h vs heq)]
    constructor
    · rintro hv vs' heq'
      rw [heq] at heq'
      cases heq'
      exact hv
    · exact fun hv => hv vs heq
  next hne => exact ⟨fun _ vs heq => absurd heq (hne vs), fun _ => rfl⟩

theorem lookup_filter (k : Utf16) (name : String) (h : literal name ≠ k) : ∀ ms : Members,
    (ms.filter fun m => decide (m.1 ≠ k)).lookup (literal name) = ms.lookup (literal name)
  | [] => rfl
  | m :: ms => by
      by_cases hm : m.1 = k
      · have hne : (literal name == m.1) = false := by
          rw [hm]
          simpa using h
        rw [List.filter_cons_of_neg (by simpa using hm), lookup_filter k name h ms,
          List.lookup_cons, hne]
      · rw [List.filter_cons_of_pos (by simpa using hm), List.lookup_cons, List.lookup_cons,
          lookup_filter k name h ms]

theorem get_withoutEnum {name : String} (h : literal name ≠ literal "enum") :
    get (withoutEnum ms) name = get ms name := lookup_filter _ name h ms

theorem get_withoutEnum_enum : get (withoutEnum ms) "enum" = none := by
  rw [get, List.lookup_eq_none_iff]
  intro m hm
  have hne := of_decide_eq_true (List.mem_filter.mp hm).2
  exact bne_iff_ne.mpr fun heq => hne heq.symm

/-! ## Values without parts -/

theorem isText_typed (h : Typed ms type) (name : String) :
    isText name (get ms "type") = decide (literal type = literal name) := by
  rw [h]
  rfl

/-- A check lets through exactly what has a property, and refuses the rest. -/
def Decides (x : Except Failure Unit) (p : Prop) : Prop :=
  (x = .ok () ↔ p) ∧ ∀ f, x = .error f → f.code = some "ValidationFailed"

def Checks (s : Tree) : Prop := ∀ path v, Decides (validateValue (membersOf s) path v) (Instance s v)

theorem decides_of_ite {b : Prop} [Decidable b]
    {message : String} (hx : x = if b then .ok () else refused path message) (hb : b ↔ p) :
    Decides x p := by
  subst hx
  by_cases h : b
  · rw [if_pos h]
    exact ⟨iff_of_true rfl (hb.mp h), fun f hf => nomatch hf⟩
  · rw [if_neg h]
    refine ⟨iff_of_false (fun heq => nomatch heq) fun hp => h (hb.mpr hp), ?_⟩
    intro f hf
    cases hf
    rfl

theorem getD_le_iff (x : Option ℕ) (n : ℕ) : x.getD 0 ≤ n ↔ ∀ lo, x = some lo → lo ≤ n := by
  cases x <;> simp

theorem any_le_iff {x : Option ℕ} (hx : x = some hi) (n : ℕ) :
    (x.any fun hi => decide (n ≤ hi)) = true ↔ ∀ hi, x = some hi → n ≤ hi := by
  simp [hx]

theorem formatValid_iff (h : ∀ f, get ms "format" = some f → ∃ t r, f = .string t ∧ formatOf t = some r)
    (t : Utf16) : formatValid ms t = true ↔
      ∀ f, get ms "format" = some (.string f) → ∃ r, formatOf f = some r ∧ test r t = true := by
  unfold formatValid
  cases hf : get ms "format" with
  | none => simp
  | some f =>
      obtain ⟨f, r, rfl, hr⟩ := h f hf
      simp [toText, hr]

theorem stringValid_iff (hmax : natural (get ms "maxLength") = some hi)
    (hformat : ∀ f, get ms "format" = some f → ∃ t r, f = .string t ∧ formatOf t = some r)
    (t : Utf16) : stringValid ms t = true ↔
      (∀ lo, natural (get ms "minLength") = some lo → lo ≤ t.length) ∧
        (∀ hi, natural (get ms "maxLength") = some hi → t.length ≤ hi) ∧
        ∀ f, get ms "format" = some (.string f) → ∃ r, formatOf f = some r ∧ test r t = true := by
  rw [stringValid, Bool.and_eq_true, Bool.and_eq_true, decide_eq_true_eq, getD_le_iff,
    any_le_iff hmax, formatValid_iff hformat, and_assoc]

theorem within_iff (h : Range ms) (x : ℚ) : Within ms x ↔
    ((finite (get ms "minimum")).any fun lo => decide (lo ≤ x)) = true ∧
      ((finite (get ms "maximum")).any fun hi => decide (x ≤ hi)) = true := by
  obtain ⟨lo, hi, hlo, hhi, -⟩ := h
  simp [Within, hlo, hhi]

theorem safeInteger_iff (h : Range ms) {x : Js.Double} (hx : Within ms x.value) :
    (Number.finite x).safeInteger.isSome = true ↔ x.value.den = 1 := by
  obtain ⟨lo, hi, hlo, hhi, -, hlobound, hhibound⟩ := h
  have hbound : |x.value| ≤ Js.maxSafeInteger := by
    rw [abs_le] at *
    exact ⟨hlobound.1.trans (hx.1 lo hlo), (hx.2 hi hhi).trans hhibound.2⟩
  rw [Number.safeInteger]
  split_ifs with hsafe
  · simp [hsafe.1]
  · have hden : x.value.den ≠ 1 := fun hden => hsafe ⟨hden, hbound⟩
    simp [hden]

theorem checks_excluded (hexcluded : enumExcludes ms v = true) (hprimitive : PrimitiveEnum ms)
    (hlisted : Instance (.object ms) v → Listed ms v) :
    Decides (validateValue ms path v) (Instance (.object ms) v) := by
  have hrefused : validateValue ms path v =
      if False then .ok () else refused path ": value is not in the command contract" := by
    unfold validateValue
    rw [if_neg not_false]
    exact if_pos hexcluded
  refine decides_of_ite hrefused (iff_of_false not_false fun h => ?_)
  rw [(enumExcludes_iff hprimitive).mpr (hlisted h)] at hexcluded
  cases hexcluded

theorem Instance.listed {v : Tree} (h : Instance s v) : Listed (membersOf s) v := by
  cases h <;> assumption

theorem Typed.elim {a b : String} (ha : Typed ms a) (hb : Typed ms b)
    (hne : literal a ≠ literal b) : p := by
  rw [Typed] at ha hb
  rw [ha, Option.some.injEq, Tree.string.injEq] at hb
  exact absurd hb hne

theorem instance_string_iff (h : Typed ms "string") (hlisted : Listed ms v) :
    Instance (.object ms) v ↔ ∃ t, v = .string t ∧
      (∀ lo, natural (get ms "minLength") = some lo → lo ≤ t.length) ∧
      (∀ hi, natural (get ms "maxLength") = some hi → t.length ≤ hi) ∧
      ∀ f, get ms "format" = some (.string f) → ∃ r, formatOf f = some r ∧ test r t = true := by
  constructor
  · intro hinstance
    cases hinstance with
    | string _ _ hlo hhi hformat => exact ⟨_, rfl, hlo, hhi, hformat⟩
    | integer htyped | number htyped | boolean htyped | array htyped | object htyped =>
        exact h.elim htyped (by decide)
  · rintro ⟨t, rfl, hlo, hhi, hformat⟩
    exact .string h hlisted hlo hhi hformat

theorem instance_integer_iff (h : Typed ms "integer") (hlisted : Listed ms v) :
    Instance (.object ms) v ↔
      ∃ x, v = .number (.finite x) ∧ x.value.den = 1 ∧ Within ms x.value := by
  constructor
  · intro hinstance
    cases hinstance with
    | integer _ _ hden hwithin => exact ⟨_, rfl, hden, hwithin⟩
    | string htyped | number htyped | boolean htyped | array htyped | object htyped =>
        exact h.elim htyped (by decide)
  · rintro ⟨x, rfl, hden, hwithin⟩
    exact .integer h hlisted hden hwithin

theorem instance_number_iff (h : Typed ms "number") (hlisted : Listed ms v) :
    Instance (.object ms) v ↔ ∃ x, v = .number (.finite x) ∧ Within ms x.value := by
  constructor
  · intro hinstance
    cases hinstance with
    | number _ _ hwithin => exact ⟨_, rfl, hwithin⟩
    | string htyped | integer htyped | boolean htyped | array htyped | object htyped =>
        exact h.elim htyped (by decide)
  · rintro ⟨x, rfl, hwithin⟩
    exact .number h hlisted hwithin

theorem instance_boolean_iff (h : Typed ms "boolean") (hlisted : Listed ms v) :
    Instance (.object ms) v ↔ ∃ b, v = .boolean b := by
  constructor
  · intro hinstance
    cases hinstance with
    | boolean => exact ⟨_, rfl⟩
    | string htyped | integer htyped | number htyped | array htyped | object htyped =>
        exact h.elim htyped (by decide)
  · rintro ⟨b, rfl⟩
    exact .boolean h hlisted

theorem instance_array_iff (h : Typed ms "array") (hlisted : Listed ms v)
    (hitems : get ms "items" = some items) : Instance (.object ms) v ↔ ∃ xs, v = .array xs ∧
      ((∀ lo, natural (get ms "minItems") = some lo → lo ≤ xs.length) ∧
        ∀ hi, natural (get ms "maxItems") = some hi → xs.length ≤ hi) ∧
      ∀ x ∈ xs, Instance items x := by
  constructor
  · intro hinstance
    cases hinstance with
    | array _ hitems' _ hlo hhi hall =>
        rw [hitems] at hitems'
        cases hitems'
        exact ⟨_, rfl, ⟨hlo, hhi⟩, hall⟩
    | string htyped | integer htyped | number htyped | boolean htyped | object htyped =>
        exact h.elim htyped (by decide)
  · rintro ⟨xs, rfl, ⟨hlo, hhi⟩, hall⟩
    exact .array h hitems hlisted hlo hhi hall

theorem instance_object_iff (h : Typed ms "object") (hlisted : Listed ms v) :
    Instance (.object ms) v ↔ ∃ vs, v = .object vs ∧
      ((∀ k ∈ Tree.keys vs, k ∈ Tree.keys (propertiesOf ms)) ∧
        ∀ r ∈ requiredOf ms, ∃ k ∈ Tree.keys vs, r = .string k) ∧
      ∀ k child v, (propertiesOf ms).lookup k = some child → (k, v) ∈ vs → Instance child v := by
  constructor
  · intro hinstance
    cases hinstance with
    | object _ _ hkeys hrequired hall => exact ⟨_, rfl, ⟨hkeys, hrequired⟩, hall⟩
    | string htyped | integer htyped | number htyped | boolean htyped | array htyped =>
        exact h.elim htyped (by decide)
  · rintro ⟨vs, rfl, ⟨hkeys, hrequired⟩, hall⟩
    exact .object h hlisted hkeys hrequired hall

def textValid (ms : Members) : Tree → Bool
  | .string t => stringValid ms t
  | _ => false

/-- The value is a number within its bounds. -/
def finiteValid (ms : Members) (integer : Bool) : Tree → Bool
  | .number x => numberValid ms integer x
  | _ => false

def isBoolean : Tree → Bool
  | .boolean _ => true
  | _ => false

theorem validateValue_string (h : Typed ms "string") (hlisted : enumExcludes ms v = false) :
    validateValue ms path v = if textValid ms v then .ok () else refused path ": invalid string" := by
  have hname := isText_typed h
  have hobject : isText "object" (get ms "type") = false := (hname _).trans (by decide)
  have harray : isText "array" (get ms "type") = false := (hname _).trans (by decide)
  have hstring : isText "string" (get ms "type") = true := (hname _).trans (by decide)
  unfold validateValue
  rw [hlisted, hobject, harray, hstring]
  cases v <;> rfl

theorem validateValue_number (h : Typed ms type)
    (htype : type = "integer" ∨ type = "number") (hlisted : enumExcludes ms v = false) :
    validateValue ms path v =
      if finiteValid ms (decide (type = "integer")) v then .ok ()
      else refused path ": invalid number" := by
  have hname := isText_typed h
  unfold validateValue
  rw [hlisted, hname, hname, hname, hname, hname]
  rcases htype with rfl | rfl <;> cases v <;> rfl

theorem validateValue_boolean (h : Typed ms "boolean") (hlisted : enumExcludes ms v = false) :
    validateValue ms path v = if isBoolean v then .ok () else refused path ": invalid boolean" := by
  have hname := isText_typed h
  unfold validateValue
  rw [hlisted, hname, hname, hname, hname, hname, hname]
  cases v <;> rfl

theorem numberValid_iff (h : Range ms) (integer : Bool) :
    finiteValid ms integer v = true ↔
      ∃ x, v = .number (.finite x) ∧ (integer = true → x.value.den = 1) ∧ Within ms x.value := by
  unfold finiteValid
  split
  next x =>
    cases x with
    | finite x =>
        rw [numberValid, Bool.and_assoc, Bool.and_eq_true, Bool.and_eq_true, ← within_iff h]
        simp only [Tree.number.injEq, Number.finite.injEq, exists_eq_left']
        refine and_congr_left fun hwithin => ?_
        rw [Bool.or_eq_true, safeInteger_iff h hwithin]
        cases integer <;> simp
    | infinite b => simp [numberValid]
  next hne => exact iff_of_false (by decide) fun ⟨x, hx, _⟩ => hne _ hx

theorem checks_leaf (h : Leaf type keywords ms)
    (htyped : Typed ms type) (hprimitive : PrimitiveEnum ms) : Checks (.object ms) := by
  intro path v
  cases hexcluded : enumExcludes ms v with
  | true => exact checks_excluded hexcluded hprimitive fun h => h.listed
  | false =>
      have hlisted := (enumExcludes_iff hprimitive).mp hexcluded
      show Decides (validateValue ms path v) _
      cases h with
      | string hmax _ _ hformat =>
          refine decides_of_ite (validateValue_string htyped hexcluded) ?_
          rw [instance_string_iff htyped hlisted]
          cases v with
          | string t => simp [textValid, stringValid_iff hmax hformat]
          | _ => simp [textValid]
      | integer hrange =>
          refine decides_of_ite (validateValue_number htyped (.inl rfl) hexcluded) ?_
          rw [instance_integer_iff htyped hlisted, numberValid_iff hrange]
          simp
      | number hrange =>
          refine decides_of_ite (validateValue_number htyped (.inr rfl) hexcluded) ?_
          rw [instance_number_iff htyped hlisted, numberValid_iff hrange]
          simp
      | boolean =>
          refine decides_of_ite (validateValue_boolean htyped hexcluded) ?_
          rw [instance_boolean_iff htyped hlisted]
          cases v <;> simp [isBoolean]

/-! ## Values with parts -/

theorem Decides.and (hx : Decides x p)
    {y : Except Failure Unit} (hy : Decides y q) : Decides (x >>= fun _ => y) (p ∧ q) := by
  cases x with
  | error f => exact ⟨iff_of_false (fun h => nomatch h) fun h => (nomatch hx.1.mpr h.1), hx.2⟩
  | ok u =>
      have hp := hx.1.mp rfl
      exact ⟨hy.1.trans (and_iff_right hp).symm, hy.2⟩

theorem Decides.congr (hx : Decides x p) (h : p ↔ q) :
    Decides x q := ⟨hx.1.trans h, hx.2⟩

theorem decides_refused (message : String) (hp : ¬ p) :
    Decides (refused path message) p :=
  decides_of_ite (if_neg not_false).symm (iff_of_false not_false hp)

theorem Decides.guard {b : Bool} {message : String}
    (hb : b = true ↔ p) (hx : p → Decides x q) :
    Decides (if b then x else refused path message) (p ∧ q) := by
  cases b with
  | true =>
      have hp := hb.mp rfl
      exact (hx hp).congr (and_iff_right hp).symm
  | false =>
      show Decides (refused path message) _
      exact decides_refused message fun h => nomatch hb.mpr h.1

theorem decides_items (h : Checks items) (xs : List Tree) (path : Utf16) (i : ℕ) :
    Decides (validateItems (membersOf items) path i xs) (∀ x ∈ xs, Instance items x) := by
  induction xs generalizing i with
  | nil =>
      rw [validateItems]
      exact ⟨iff_of_true rfl (by simp), by simp⟩
  | cons x xs ih =>
      rw [validateItems]
      exact ((h _ x).and (ih (i + 1))).congr List.forall_mem_cons.symm

theorem exists_lookup {ps : Members} {k : Utf16} (h : k ∈ Tree.keys ps) :
    ∃ child, ps.lookup k = some child ∧ (k, child) ∈ ps := by
  induction ps with
  | nil => exact nomatch h
  | cons p ps ih =>
      rw [List.lookup_cons]
      by_cases hk : k = p.1
      · subst hk
        exact ⟨p.2, by simp, List.mem_cons_self ..⟩
      · have hmem : k ∈ Tree.keys ps := (List.mem_cons.mp h).resolve_left hk
        obtain ⟨child, hlookup, hchild⟩ := ih hmem
        have hne : (k == p.1) = false := beq_eq_false_iff_ne.mpr hk
        rw [hne]
        exact ⟨child, hlookup, List.mem_cons_of_mem _ hchild⟩

theorem decides_fields {ps : Members} (h : ∀ p ∈ ps, Checks p.2) (path : Utf16) :
    ∀ vs : Members, (∀ k ∈ Tree.keys vs, k ∈ Tree.keys ps) →
      Decides (validateFields ps path vs)
        (∀ k child v, ps.lookup k = some child → (k, v) ∈ vs → Instance child v)
  | [] => fun _ => by
      rw [validateFields]
      exact ⟨iff_of_true rfl fun _ _ _ _ h => (nomatch h), fun _ h => nomatch h⟩
  | (k, v) :: vs => fun hkeys => by
      obtain ⟨hk, hrest⟩ := List.forall_mem_cons.mp hkeys
      obtain ⟨child, hlookup, hmem⟩ := exists_lookup hk
      rw [validateFields, hlookup]
      refine ((h _ hmem _ v).and (decides_fields h path vs hrest)).congr ?_
      constructor
      · rintro ⟨hv, hvs⟩ k' child' v' hlookup' hmem'
        rcases List.mem_cons.mp hmem' with heq | hmem'
        · cases heq
          rw [hlookup] at hlookup'
          cases hlookup'
          exact hv
        · exact hvs k' child' v' hlookup' hmem'
      · intro hall
        exact ⟨hall k child v hlookup (List.mem_cons_self ..), fun k' child' v' hlookup' hmem' =>
          hall k' child' v' hlookup' (List.mem_cons_of_mem _ hmem')⟩

theorem validateValue_array (h : Typed ms "array") (hlisted : enumExcludes ms v = false) :
    validateValue ms path v =
      match v with
      | .array xs =>
          if itemsValid ms xs then
            validateItems (((get ms "items").map membersOf).getD []) path 0 xs
          else refused path ": invalid array"
      | _ => refused path ": invalid array" := by
  have hname := isText_typed h
  unfold validateValue
  rw [hlisted, hname, hname]
  cases v <;> rfl

theorem validateValue_object (h : Typed ms "object") (hlisted : enumExcludes ms v = false) :
    validateValue ms path v =
      match v with
      | .object vs =>
          if fieldsValid ms vs then validateFields (propertiesOf ms) path vs
          else refused path ": unexpected or missing field"
      | _ => refused path ": unexpected or missing field" := by
  have hname := isText_typed h
  unfold validateValue
  rw [hlisted, hname]
  cases v <;> rfl

theorem checks_array (h : Typed ms "array") (henum : get ms "enum" = none)
    (hmax : natural (get ms "maxItems") = some hi) (hitems : get ms "items" = some items)
    (hchild : Checks items) : Checks (.object ms) := by
  intro path v
  have hlisted : Listed ms v := fun vs heq => by rw [henum] at heq; cases heq
  have hexcluded : enumExcludes ms v = false := by rw [enumExcludes, henum]
  show Decides (validateValue ms path v) _
  rw [validateValue_array h hexcluded, instance_array_iff h hlisted hitems, hitems]
  cases v with
  | array xs =>
      have hbounds : itemsValid ms xs = true ↔
          (∀ lo, natural (get ms "minItems") = some lo → lo ≤ xs.length) ∧
            ∀ hi, natural (get ms "maxItems") = some hi → xs.length ≤ hi := by
        rw [itemsValid, Bool.and_eq_true, decide_eq_true_eq, getD_le_iff, any_le_iff hmax]
      refine (Decides.guard hbounds fun _ => decides_items hchild xs path 0).congr ?_
      simp
  | _ => exact decides_refused _ (by simp)

theorem own_iff {vs : Members} (r : Tree) : own vs r = true ↔ ∃ k ∈ Tree.keys vs, r = .string k := by
  cases r with
  | string k => simp [own]
  | _ => simp [own]

theorem checks_object (h : Typed ms "object") (henum : get ms "enum" = none)
    (hchild : ∀ p ∈ propertiesOf ms, Checks p.2) : Checks (.object ms) := by
  intro path v
  have hlisted : Listed ms v := fun vs heq => by rw [henum] at heq; cases heq
  have hexcluded : enumExcludes ms v = false := by rw [enumExcludes, henum]
  show Decides (validateValue ms path v) _
  rw [validateValue_object h hexcluded, instance_object_iff h hlisted]
  cases v with
  | object vs =>
      have hfields : fieldsValid ms vs = true ↔
          (∀ k ∈ Tree.keys vs, k ∈ Tree.keys (propertiesOf ms)) ∧
            ∀ r ∈ requiredOf ms, ∃ k ∈ Tree.keys vs, r = .string k := by
        simp only [fieldsValid, Bool.and_eq_true, List.all_eq_true, decide_eq_true_eq, own_iff]
      refine (Decides.guard hfields fun hvalid =>
        decides_fields hchild path vs hvalid.1).congr ?_
      simp
  | _ => exact decides_refused _ (by simp)

theorem primitiveEnum_of_enumeration (h : Enumeration ms) : PrimitiveEnum ms := by
  intro vs heq v hv
  obtain ⟨vs', heq', -, -, -, hall⟩ := h _ heq
  cases heq'
  exact (hall v hv).1

theorem checks_valid {d : ℕ} (h : Valid d s) : Checks s := by
  induction h with
  | leaf hleaf hhead henum =>
      exact checks_leaf hleaf hhead.typed (primitiveEnum_of_enumeration henum)
  | array hhead henum hmax _ _ hitems _ ih => exact checks_array hhead.typed henum hmax hitems ih
  | object hhead henum _ hproperties _ _ _ _ _ _ ih =>
      refine checks_object hhead.typed henum ?_
      rw [propertiesOf, hproperties]
      exact ih

end

/-! ## Walks over schemas -/

/-- Nothing is met but nodes. -/
def Clean (es : List Event) : Prop := ∀ e ∈ es, e = .visit

section

variable {ms : Members} {es fs : List Event}

theorem clean_append : Clean (es ++ fs) ↔ Clean es ∧ Clean fs := List.forall_mem_append

theorem clean_rule {b : Bool} : Clean (rule b) ↔ b = true := by
  cases b <;> simp [rule, Clean]

theorem clean_cons : Clean (.visit :: es) ↔ Clean es := by
  simp [Clean]

theorem enumValid_iff : enumValid ms = true ↔ ∀ e, get ms "enum" = some e → ∃ vs, e = .array vs ∧
    vs ≠ [] ∧ vs.length ≤ 64 ∧ (∀ v ∈ vs, primitive v = true) ∧ vs.Nodup := by
  unfold enumValid
  split
  next heq => simp [heq]
  next vs heq =>
    simp only [heq, Option.some.injEq, forall_eq', Bool.and_eq_true, Bool.not_eq_true',
      List.isEmpty_eq_false_iff, decide_eq_true_eq, List.all_eq_true, and_assoc, Tree.array.injEq,
      exists_eq_left']
    refine and_congr_right fun _ => and_congr_right fun _ => and_congr_right fun hprimitive => ?_
    exact distinct_iff hprimitive
  next e hne heq =>
    refine iff_of_false (by decide) fun h => ?_
    obtain ⟨vs, rfl, -⟩ := h e heq
    exact hne vs rfl

/-- The type of a value is one of the six, and what goes with every type is as it has to be. -/
theorem clean_head : Clean (headEvents ms) ↔
    (∃ f ∈ typeTable, Head ms f.1 f.2) ∧ enumValid ms = true := by
  have htable : ∀ f ∈ typeTable, fieldsOf (literal f.1) = .keywords f.2 := by decide
  have hdescribed : described ms = true ↔
      ∀ d, get ms "description" = some d → ∃ t, d = .string t ∧ t.length ≤ 500 := by
    unfold described
    split
    next heq => simp [heq]
    next t heq => simp [heq]
    next d hne heq =>
      refine iff_of_false (by decide) fun h => ?_
      obtain ⟨t, rfl, -⟩ := h d heq
      exact hne t rfl
  have hclosed : ∀ keywords, closed ms keywords = true ↔ ∀ k ∈ Tree.keys ms,
      ∃ n ∈ ["type", "description", "enum"] ++ keywords, literal n = k := by
    intro keywords
    simp only [closed, List.all_eq_true, List.any_eq_true, decide_eq_true_eq]
  constructor
  · intro h
    unfold headEvents at h
    split at h
    next => exact absurd (h _ (List.mem_singleton_self _)) (by decide)
    next key hkey =>
      split at h
      next => exact absurd (h _ (List.mem_singleton_self _)) (by decide)
      next => exact absurd (h _ (List.mem_singleton_self _)) (by decide)
      next names hfields =>
        rw [clean_append, clean_rule, Bool.and_eq_true, Bool.and_eq_true, hclosed, hdescribed] at h
        obtain ⟨hstring, ⟨hclosed, hdescription⟩, henum⟩ := h
        have htyped : get ms "type" = some (.string key) := by
          unfold typeKey at hkey
          cases htype : get ms "type" with
          | none =>
              rw [htype] at hstring
              exact absurd (hstring _ (List.mem_singleton_self _)) (by decide)
          | some x =>
              rw [htype] at hkey hstring
              cases x with
              | string s =>
                  cases hkey
                  rfl
              | _ => exact absurd (hstring _ (List.mem_singleton_self _)) (by decide)
        unfold fieldsOf at hfields
        split at hfields
        next f hfind =>
          cases hfields
          have hfound := List.find?_some hfind
          have hname := of_decide_eq_true hfound
          rw [← hname] at htyped
          exact ⟨⟨f, List.mem_of_find?_eq_some hfind, htyped, hclosed, hdescription⟩, henum⟩
        next => split_ifs at hfields
  · rintro ⟨⟨f, hf, hhead⟩, henum⟩
    have hkey : typeKey ms = some (literal f.1) := by
      rw [typeKey, hhead.typed]
      rfl
    have hstring : isString (get ms "type") = true := by
      rw [hhead.typed]
      rfl
    unfold headEvents
    rw [hkey]
    dsimp only
    rw [htable f hf]
    dsimp only
    rw [if_pos hstring, List.nil_append, clean_rule, Bool.and_eq_true, Bool.and_eq_true, hclosed,
      hdescribed]
    exact ⟨⟨hhead.keywords, hhead.description⟩, henum⟩

theorem lowerValid_iff (x : Option Tree) (hi : ℕ) : lowerValid x hi = true ↔ Lower x hi := by
  cases x with
  | none => simp [lowerValid, Lower]
  | some x => simp [lowerValid, Lower, Option.any_eq_true]

theorem clean_format : Clean (formatEvents ms) ↔
    ∀ f, get ms "format" = some f → ∃ t r, f = .string t ∧ formatOf t = some r := by
  unfold formatEvents
  cases get ms "format" with
  | none => simp [Clean]
  | some f =>
      simp only [Option.some.injEq, forall_eq']
      cases f with
      | string t => simp [toText, isString, clean_rule, Option.isSome_iff_exists]
      | _ =>
          refine iff_of_false (fun h => ?_) (by simp)
          split at h
          next => exact absurd (h _ (List.mem_singleton_self _)) (by decide)
          next =>
            rw [clean_append] at h
            exact absurd (h.1 _ (List.mem_singleton_self _)) (by decide)

theorem rangeValid_iff : rangeValid ms = true ↔ Range ms := by
  unfold rangeValid Range
  cases finite (get ms "minimum") <;> cases finite (get ms "maximum") <;> simp [and_assoc]

theorem typed_withoutEnum : Typed (withoutEnum ms) type ↔ Typed ms type := by
  rw [Typed, Typed, get_withoutEnum (by decide)]

theorem Leaf.withoutEnum (h : Leaf type keywords ms) :
    Leaf type keywords (withoutEnum ms) := by
  have hget : ∀ name, literal name ≠ literal "enum" →
      get (CommandSchema.withoutEnum ms) name = get ms name := fun _ h => get_withoutEnum h
  cases h with
  | string hmax hbounds hlower hformat =>
      refine .string ?_ hbounds ?_ ?_
      · rwa [hget _ (by decide)]
      · rwa [hget _ (by decide)]
      · rwa [hget _ (by decide)]
  | integer hrange =>
      refine .integer ?_
      rwa [Range, hget _ (by decide), hget _ (by decide)]
  | number hrange =>
      refine .number ?_
      rwa [Range, hget _ (by decide), hget _ (by decide)]
  | boolean => exact .boolean

theorem enumConforms_iff {p : Tree → Prop} (hchecks : ∀ v, primitive v = true →
    ((validateValue (withoutEnum ms) (literal "enum") v).isOk = true ↔ p v))
    (henum : enumValid ms = true) : enumConforms ms = true ↔
      ∀ vs, get ms "enum" = some (.array vs) → ∀ v ∈ vs, p v := by
  rw [enumValid_iff] at henum
  unfold enumConforms
  split
  next vs heq =>
    obtain ⟨vs', hvs, -, -, hprimitive, -⟩ := henum _ heq
    cases hvs
    rw [List.all_eq_true]
    constructor
    · intro h vs' heq' v hv
      rw [heq] at heq'
      cases heq'
      exact (hchecks v (hprimitive v hv)).mp (h v hv)
    · intro h v hv
      exact (hchecks v (hprimitive v hv)).mpr (h vs heq v hv)
  next hne => exact iff_of_true rfl fun vs heq => absurd heq (hne vs)

theorem enumeration_iff (h : Leaf type keywords ms)
    (htyped : Typed ms type) :
    enumValid ms = true ∧ enumConforms ms = true ↔ Enumeration ms := by
  have hchecks : ∀ v, primitive v = true →
      ((validateValue (withoutEnum ms) (literal "enum") v).isOk = true ↔
        Instance (.object (withoutEnum ms)) v) := by
    intro v _
    have hdecides := checks_leaf h.withoutEnum (typed_withoutEnum.mpr htyped)
      (fun vs heq => by rw [get_withoutEnum_enum] at heq; cases heq) (literal "enum") v
    rw [← hdecides.1]
    show (validateValue (withoutEnum ms) (literal "enum") v).isOk = true ↔
      validateValue (withoutEnum ms) (literal "enum") v = .ok ()
    cases validateValue (withoutEnum ms) (literal "enum") v <;> simp [Except.isOk, Except.toBool]
  constructor
  · rintro ⟨hvalid, hconforms⟩ e heq
    have hall := (enumConforms_iff hchecks hvalid).mp hconforms
    obtain ⟨vs, rfl, hne, hlength, hprimitive, hnodup⟩ := enumValid_iff.mp hvalid e heq
    exact ⟨vs, rfl, hne, hlength, hnodup, fun v hv => ⟨hprimitive v hv, hall vs heq v hv⟩⟩
  · intro henum
    have hvalid : enumValid ms = true := by
      rw [enumValid_iff]
      intro e heq
      obtain ⟨vs, rfl, hne, hlength, hnodup, hall⟩ := henum e heq
      exact ⟨vs, rfl, hne, hlength, fun v hv => (hall v hv).1, hnodup⟩
    refine ⟨hvalid, (enumConforms_iff hchecks hvalid).mpr fun vs heq v hv => ?_⟩
    obtain ⟨vs', hvs, -, -, -, hall⟩ := henum _ heq
    cases hvs
    exact (hall v hv).2

theorem no_enumeration_iff (h : Typed ms "object" ∨ Typed ms "array") :
    enumValid ms = true ∧ enumConforms ms = true ↔ get ms "enum" = none := by
  have hchecks : ∀ v, primitive v = true →
      ((validateValue (withoutEnum ms) (literal "enum") v).isOk = true ↔ False) := by
    intro v hv
    have hexcluded : enumExcludes (withoutEnum ms) v = false := by
      rw [enumExcludes, get_withoutEnum_enum]
    rcases h with htyped | htyped
    · rw [validateValue_object (typed_withoutEnum.mpr htyped) hexcluded]
      cases v with
      | object vs => exact nomatch hv
      | array xs => exact nomatch hv
      | _ => exact iff_of_false nofun not_false
    · rw [validateValue_array (typed_withoutEnum.mpr htyped) hexcluded]
      cases v with
      | object vs => exact nomatch hv
      | array xs => exact nomatch hv
      | _ => exact iff_of_false nofun not_false
  constructor
  · rintro ⟨hvalid, hconforms⟩
    by_contra hsome
    obtain ⟨e, heq⟩ := Option.ne_none_iff_exists'.mp hsome
    obtain ⟨vs, rfl, hne, -⟩ := enumValid_iff.mp hvalid e heq
    obtain ⟨v, vs, rfl⟩ := List.exists_cons_of_ne_nil hne
    exact (enumConforms_iff hchecks hvalid).mp hconforms _ heq v (List.mem_cons_self ..)
  · intro hnone
    rw [enumValid, enumConforms, hnone]
    exact ⟨rfl, rfl⟩

theorem objectValid_iff : objectValid ms = true ↔ get ms "additionalProperties" = some (.boolean false) ∧
    ∃ ps rs, get ms "properties" = some (.object ps) ∧ ps.length ≤ 32 ∧
      get ms "required" = some (.array rs) ∧ rs.Nodup ∧
      ∀ r ∈ rs, ∃ k ∈ Tree.keys ps, r = .string k := by
  unfold objectValid
  split
  next ps rs hclosed hproperties hrequired =>
    simp only [hclosed, hproperties, hrequired, true_and, Option.some.injEq, Tree.object.injEq,
      Tree.array.injEq, exists_and_left, exists_eq_left', Bool.and_eq_true, decide_eq_true_eq,
      and_assoc]
    refine and_congr_right fun _ => ?_
    have hall : rs.all (own ps) = true ↔ ∀ r ∈ rs, ∃ k ∈ Tree.keys ps, r = .string k := by
      simp only [List.all_eq_true, own_iff]
    rw [hall]
    refine and_congr_left fun h => distinct_iff fun r hr => ?_
    obtain ⟨k, -, rfl⟩ := h r hr
    rfl
  next hne =>
    refine iff_of_false (by decide) ?_
    rintro ⟨hclosed, ps, rs, hproperties, -, hrequired, -⟩
    exact hne ps rs hclosed hproperties hrequired

theorem arrayValid_iff : arrayValid ms = true ↔
    ∃ hi, natural (get ms "maxItems") = some hi ∧ hi ≤ 64 ∧ Lower (get ms "minItems") hi := by
  unfold arrayValid
  cases natural (get ms "maxItems") with
  | none => simp
  | some hi => simp [lowerValid_iff]

theorem lengthsValid_iff : lengthsValid ms = true ↔ ∃ hi, natural (get ms "maxLength") = some hi ∧
    (1 ≤ hi ∧ hi ≤ 4096) ∧ Lower (get ms "minLength") hi := by
  unfold lengthsValid
  cases natural (get ms "maxLength") with
  | none => simp
  | some hi => simp [lowerValid_iff]

/-! ## Events of a type -/

variable {child : Option Tree → List Event}

theorem typeEvents_object (h : Typed ms "object") : typeEvents child ms = rule (objectValid ms) ++
    (propertiesOf ms).flatMap fun p => rule (safeField p.1) ++ child (some p.2) := by
  unfold typeEvents
  simp only [isText_typed h]
  rfl

theorem typeEvents_array (h : Typed ms "array") :
    typeEvents child ms = rule (arrayValid ms) ++ child (get ms "items") := by
  unfold typeEvents
  simp only [isText_typed h]
  rfl

theorem Leaf.bounds (h : Leaf type keywords ms) :
    (type = "string" → (∃ hi, natural (get ms "maxLength") = some hi ∧ (1 ≤ hi ∧ hi ≤ 4096) ∧
      Lower (get ms "minLength") hi) ∧
        ∀ f, get ms "format" = some f → ∃ t r, f = .string t ∧ formatOf t = some r) ∧
    (type = "integer" ∨ type = "number" → Range ms) := by
  cases h with
  | string hmax hbounds hlower hformat =>
      exact ⟨fun _ => ⟨⟨_, hmax, hbounds, hlower⟩, hformat⟩, fun h => absurd h (by decide)⟩
  | integer hrange | number hrange => exact ⟨fun h => absurd h (by decide), fun _ => hrange⟩
  | boolean => exact ⟨fun h => absurd h (by decide), fun h => absurd h (by decide)⟩

/-- A schema without parts has the bounds of its type. -/
theorem clean_leaf (hf : (type, keywords) ∈ typeTable)
    (hobject : type ≠ "object") (harray : type ≠ "array") (h : Typed ms type) :
    Clean (typeEvents child ms) ↔ Leaf type keywords ms := by
  unfold typeEvents
  simp only [isText_typed h]
  simp only [typeTable, List.mem_cons, Prod.mk.injEq, List.not_mem_nil, or_false] at hf
  rcases hf with ⟨rfl, rfl⟩ | ⟨rfl, rfl⟩ | ⟨rfl, rfl⟩ | ⟨rfl, rfl⟩ | ⟨rfl, rfl⟩ | ⟨rfl, rfl⟩
  · show Clean (rule (lengthsValid ms) ++ formatEvents ms) ↔ _
    rw [clean_append, clean_rule, clean_format, lengthsValid_iff]
    constructor
    · rintro ⟨⟨hi, hmax, hbounds, hlower⟩, hformat⟩
      exact .string hmax hbounds hlower hformat
    · exact fun hleaf => hleaf.bounds.1 rfl
  · show Clean (rule (rangeValid ms)) ↔ _
    rw [clean_rule, rangeValid_iff]
    exact ⟨.integer, fun hleaf => hleaf.bounds.2 (.inl rfl)⟩
  · show Clean (rule (rangeValid ms)) ↔ _
    rw [clean_rule, rangeValid_iff]
    exact ⟨.number, fun hleaf => hleaf.bounds.2 (.inr rfl)⟩
  · exact iff_of_true (fun _ he => nomatch he) .boolean
  · exact absurd rfl hobject
  · exact absurd rfl harray

theorem keywords_object {f : String × List String} (hf : f ∈ typeTable) (h : f.1 = "object") :
    f.2 = ["properties", "required", "additionalProperties"] := by
  revert f
  decide

theorem keywords_array {f : String × List String} (hf : f ∈ typeTable) (h : f.1 = "array") :
    f.2 = ["items", "minItems", "maxItems"] := by
  revert f
  decide

theorem Leaf.mem (h : Leaf type keywords ms) :
    (type, keywords) ∈ typeTable ∧ type ≠ "object" ∧ type ≠ "array" := by
  cases h <;> exact ⟨by decide, by decide, by decide⟩

end

/-- Only nodes are met on the walk over a schema of so many levels. -/
theorem clean_walk (d : ℕ) : ∀ s, Clean (walk d (some s)) ↔ Valid d s := by
  induction d with
  | zero =>
      intro s
      exact iff_of_false (fun h => nomatch h _ (List.mem_singleton_self _)) nofun
  | succ d ih =>
      intro s
      cases s with
      | object ms =>
          rw [walk, clean_cons, clean_append, clean_append, clean_rule, clean_head]
          constructor
          · rintro ⟨⟨⟨f, hf, hhead⟩, henum⟩, htype, hconforms⟩
            by_cases hobject : f.1 = "object"
            · rw [hobject, keywords_object hf hobject] at hhead
              rw [typeEvents_object hhead.typed, clean_append, clean_rule, objectValid_iff] at htype
              obtain ⟨⟨hclosed, ps, rs, hps, hlength, hrs, hnodup, hrequired⟩, hall⟩ := htype
              rw [propertiesOf, hps] at hall
              have hparts : ∀ p ∈ ps, safeField p.1 = true ∧ Valid d p.2 := by
                intro p hp
                have hclean : Clean (rule (safeField p.1) ++ walk d (some p.2)) := fun e he =>
                  hall e (List.mem_flatMap.mpr ⟨p, hp, he⟩)
                rwa [clean_append, clean_rule, ih] at hclean
              refine .object hhead ((no_enumeration_iff (.inl hhead.typed)).mp ⟨henum, hconforms⟩)
                hclosed hps hlength hrs hnodup hrequired ?_ fun p hp => (hparts p hp).2
              intro k hk
              obtain ⟨p, hp, rfl⟩ := List.mem_map.mp hk
              exact (hparts p hp).1
            · by_cases harray : f.1 = "array"
              · rw [harray, keywords_array hf harray] at hhead
                rw [typeEvents_array hhead.typed, clean_append, clean_rule, arrayValid_iff] at htype
                obtain ⟨⟨hi, hmax, hbound, hlower⟩, hclean⟩ := htype
                cases hitems : get ms "items" with
                | none =>
                    rw [hitems] at hclean
                    cases d <;> exact nomatch hclean _ (List.mem_singleton_self _)
                | some items =>
                    rw [hitems, ih] at hclean
                    exact .array hhead
                      ((no_enumeration_iff (.inr hhead.typed)).mp ⟨henum, hconforms⟩) hmax hbound
                      hlower hitems hclean
              · have hleaf := (clean_leaf hf hobject harray hhead.typed).mp htype
                exact .leaf hleaf hhead ((enumeration_iff hleaf hhead.typed).mp ⟨henum, hconforms⟩)
          · intro h
            cases h with
            | leaf hleaf hhead henum =>
                obtain ⟨hmem, hobject, harray⟩ := hleaf.mem
                obtain ⟨hvalid, hconforms⟩ := (enumeration_iff hleaf hhead.typed).mpr henum
                exact ⟨⟨⟨_, hmem, hhead⟩, hvalid⟩,
                  (clean_leaf hmem hobject harray hhead.typed).mpr hleaf, hconforms⟩
            | array hhead henum hmax hbound hlower hitems hchild =>
                obtain ⟨hvalid, hconforms⟩ := (no_enumeration_iff (.inr hhead.typed)).mpr henum
                have hmem : ("array", ["items", "minItems", "maxItems"]) ∈ typeTable := by decide
                refine ⟨⟨⟨_, hmem, hhead⟩, hvalid⟩, ?_, hconforms⟩
                rw [typeEvents_array hhead.typed, clean_append, clean_rule, arrayValid_iff, hitems,
                  ih]
                exact ⟨⟨_, hmax, hbound, hlower⟩, hchild⟩
            | object hhead henum hclosed hps hlength hrs hnodup hrequired hsafe hparts =>
                obtain ⟨hvalid, hconforms⟩ := (no_enumeration_iff (.inl hhead.typed)).mpr henum
                have hmem : ("object", ["properties", "required", "additionalProperties"]) ∈
                    typeTable := by decide
                refine ⟨⟨⟨_, hmem, hhead⟩, hvalid⟩, ?_, hconforms⟩
                rw [typeEvents_object hhead.typed, clean_append, clean_rule, objectValid_iff]
                refine ⟨⟨hclosed, _, _, hps, hlength, hrs, hnodup, hrequired⟩, ?_⟩
                intro e he
                rw [propertiesOf, hps] at he
                obtain ⟨p, hp, he⟩ := List.mem_flatMap.mp he
                have hclean : Clean (rule (safeField p.1) ++ walk d (some p.2)) := by
                  rw [clean_append, clean_rule, ih]
                  exact ⟨hsafe _ (List.mem_map_of_mem hp), hparts p hp⟩
                exact hclean e he
      | _ => exact iff_of_false (fun h => nomatch h _ (List.mem_singleton_self _)) nofun

/-! ## Nodes -/

section

variable {ms : Members}

theorem count_rule (b : Bool) : (rule b).count .visit = 0 := by
  cases b <;> rfl

theorem count_headEvents : (headEvents ms).count .visit = 0 := by
  unfold headEvents
  split
  next => rfl
  next =>
    split
    next => rfl
    next => rfl
    next =>
      rw [List.count_append, count_rule]
      split_ifs <;> rfl

theorem count_formatEvents : (formatEvents ms).count .visit = 0 := by
  unfold formatEvents
  split
  next => rfl
  next =>
    split
    next => rfl
    next =>
      rw [List.count_append, count_rule]
      split_ifs <;> rfl

theorem count_typeEvents (child : Option Tree → List Event) :
    (typeEvents child ms).count .visit =
      if isText "object" (get ms "type") then
        ((propertiesOf ms).map fun p => (child (some p.2)).count .visit).sum
      else if isText "array" (get ms "type") then (child (get ms "items")).count .visit
      else 0 := by
  unfold typeEvents
  split_ifs
  · rw [List.count_append, count_rule, Nat.zero_add, List.count_flatMap]
    refine congrArg List.sum (List.map_congr_left fun p _ => ?_)
    rw [Function.comp_apply, List.count_append, count_rule, Nat.zero_add]
  · rw [List.count_append, count_rule, Nat.zero_add]
  · rw [List.count_append, count_rule, count_formatEvents]
  · exact count_rule _
  · rfl

theorem count_walk_object (d : ℕ) : (walk (d + 1) (some (.object ms))).count .visit =
    1 + (typeEvents (walk d) ms).count .visit := by
  rw [walk, List.count_cons_self, List.count_append, List.count_append, count_headEvents,
    count_rule]
  omega

end

theorem count_walk {d : ℕ} (h : Valid d s) :
    (walk d (some s)).count .visit = nodes d s := by
  induction h with
  | leaf hleaf hhead henum =>
      rw [count_walk_object, count_typeEvents, nodes, membersOf, isText_typed hhead.typed,
        isText_typed hhead.typed]
      cases hleaf <;> rfl
  | array hhead henum hmax hbound hlower hitems hchild ih =>
      rw [count_walk_object, count_typeEvents, nodes, membersOf, hitems, isText_typed hhead.typed,
        isText_typed hhead.typed, ih]
      rfl
  | object hhead henum hclosed hps hlength hrs hnodup hrequired hsafe hparts ih =>
      rw [count_walk_object, count_typeEvents, nodes, membersOf, propertiesOf, hps,
        isText_typed hhead.typed]
      refine congrArg (1 + ·) ?_
      exact congrArg List.sum (List.map_congr_left ih)

/-! ## The language -/

theorem settle_error {n : ℕ} {es : List Event} {code : Option String}
    (h : settle n es = .error code) :
    code = none ∨ code = some "CommandProviderUnavailable" := by
  induction es generalizing n with
  | nil => cases h
  | cons e es ih =>
      cases e with
      | visit =>
          rw [settle] at h
          split_ifs at h
          · cases h
            exact .inr rfl
          · exact ih h
      | broken =>
          cases h
          exact .inr rfl
      | coerced => exact ih h
      | fatal =>
          cases h
          exact .inl rfl

theorem accepts_ok_iff (s : Tree) :
    (∃ n, accepts s = .ok n) ↔ ∃ n, settle 0 (walk 7 (some s)) = .ok n := by
  rw [← codeOf_validateSchema, accepts, codeOf]
  cases validateSchema 7 0 (some s) <;> simp [Except.mapError]

theorem settle_of_error {f : Failure} (h : accepts s = .error f) :
    settle 0 (walk 7 (some s)) = .error f.code := by
  rw [← codeOf_validateSchema, ← accepts, h]
  rfl

/-- The walk over a schema of the subset ends well. -/
theorem schema_iff (s : Tree) : Schema s ↔
    (∃ n, settle 0 (walk 7 (some s)) = .ok n) ∧ .coerced ∉ walk 7 (some s) := by
  rw [settle_ok_iff (by omega), Schema]
  constructor
  · rintro ⟨hvalid, hnodes⟩
    have hclean := (clean_walk 7 s).mpr hvalid
    have hmet : ∀ e ∈ walk 7 (some s), e = .visit := hclean
    rw [← count_walk hvalid] at hnodes
    refine ⟨⟨fun h => (nomatch hmet _ h), ?_⟩, fun h => (nomatch hmet _ h)⟩
    rintro (hbroken | hover)
    · exact nomatch hmet _ hbroken
    · omega
  · rintro ⟨⟨hfatal, hend⟩, hcoerced⟩
    have hclean : Clean (walk 7 (some s)) := by
      intro e he
      cases e with
      | visit => rfl
      | broken => exact absurd (.inl he) hend
      | coerced => exact absurd he hcoerced
      | fatal => exact absurd he hfatal
    have hvalid := (clean_walk 7 s).mp hclean
    refine ⟨hvalid, ?_⟩
    rw [← count_walk hvalid]
    by_contra hover
    exact hend (.inr (by omega))

/-- Schemas are accepted and anything else is refused as unavailable, and the values checked
against an accepted schema are accepted if they are its instances, and refused as invalid
otherwise. -/
structure Exact (s : Tree) : Prop where
  accepted : (∃ n, accepts s = .ok n) ↔ Schema s
  refused : ∀ f, accepts s = .error f → f.code = some "CommandProviderUnavailable"
  values : (∃ n, accepts s = .ok n) → ∀ v,
    Decides (validateValue (membersOf s) (literal "arguments") v) (Instance s v)

/-- The language is as it is said exactly for the values whose walk is orderly. -/
theorem language_exact_iff (s : Tree) : Exact s ↔ Orderly (walk 7 (some s)) := by
  rw [orderly_iff]
  constructor
  · intro h
    refine ⟨fun hnone => ?_, fun hok => ?_⟩
    · cases haccepts : accepts s with
      | ok n =>
          obtain ⟨m, hm⟩ := (accepts_ok_iff s).mp ⟨n, haccepts⟩
          rw [hm] at hnone
          cases hnone
      | error f =>
          have hcode := settle_of_error haccepts
          rw [hnone, h.refused f haccepts] at hcode
          cases hcode
    · exact ((schema_iff s).mp (h.accepted.mp ((accepts_ok_iff s).mpr hok))).2
  · rintro ⟨hnone, hcoerced⟩
    have haccepted : (∃ n, accepts s = .ok n) ↔ Schema s := by
      rw [accepts_ok_iff, schema_iff]
      exact ⟨fun hok => ⟨hok, hcoerced hok⟩, And.left⟩
    refine ⟨haccepted, ?_, ?_⟩
    · intro f hf
      have hsettle := settle_of_error hf
      rcases settle_error hsettle with hcode | hcode
      · rw [hcode] at hsettle
        exact absurd hsettle hnone
      · exact hcode
    · intro hok v
      exact checks_valid (haccepted.mp hok).1 (literal "arguments") v

def inheritedType : Tree := .object [(literal "type", .string (literal "constructor"))]

theorem inheritedType_not_exact : ¬ Exact inheritedType := by
  intro h
  have hcode := h.refused (.typeError "fields is not iterable") rfl
  cases hcode

end CommandSchema
