import Mathlib.Data.String.Basic
import Mathlib.Tactic.IntervalCases
import OpenSphere.Js.Text
import OpenSphere.Sql.Jsonb

/-!
# JSON text

`JSON.stringify` of a value, and the value with the members of every object in the
order of their keys.

`similar_iff` says that two values have the same canonical value exactly when they
differ in the order of members only, and `stringify_injective` that no two values have
the same text.  So the text of the canonical value stands for the value up to the order
of its members.
-/

open Sql

namespace Js

/-! ## Canonical values -/

def Members.place (k : String) (x : Value) : Members → Members
  | .nil => .cons k x .nil
  | .cons k' x' ms => if k' < k then .cons k' x' (ms.place k x) else .cons k x (.cons k' x' ms)

mutual

/-- The value with the members of every object in the order of their keys. -/
def Value.canonical : Value → Value
  | .array xs => .array xs.canonical
  | .object ms => .object ms.canonical
  | x => x

def Values.canonical : Values → Values
  | .nil => .nil
  | .cons x xs => .cons x.canonical xs.canonical

def Members.canonical : Members → Members
  | .nil => .nil
  | .cons k x ms => ms.canonical.place k x.canonical

end

mutual

inductive Value.Similar : Value → Value → Prop where
  | refl (x : Value) : Value.Similar x x
  | array {xs ys : Values} : Values.Similar xs ys → Value.Similar (.array xs) (.array ys)
  | object {ms ns : Members} : Members.Similar ms ns → Value.Similar (.object ms) (.object ns)

inductive Values.Similar : Values → Values → Prop where
  | nil : Values.Similar .nil .nil
  | cons {x y : Value} {xs ys : Values} :
      Value.Similar x y → Values.Similar xs ys → Values.Similar (.cons x xs) (.cons y ys)

inductive Members.Similar : Members → Members → Prop where
  | nil : Members.Similar .nil .nil
  | cons {k : String} {x y : Value} {ms ns : Members} :
      Value.Similar x y → Members.Similar ms ns → Members.Similar (.cons k x ms) (.cons k y ns)
  | swap {k k' : String} {x y : Value} {ms : Members} :
      k ≠ k' → Members.Similar (.cons k x (.cons k' y ms)) (.cons k' y (.cons k x ms))
  | trans {ms ns os : Members} :
      Members.Similar ms ns → Members.Similar ns os → Members.Similar ms os

end

/-- Members of different keys are placed in either order. -/
theorem place_place {k k' : String} (h : k ≠ k') (x y : Value) : ∀ ms : Members,
    (ms.place k' y).place k x = (ms.place k x).place k' y
  | .nil => by
      rcases lt_or_gt_of_ne h with hlt | hlt
      · simp [Members.place, hlt, hlt.not_gt]
      · simp [Members.place, hlt, hlt.not_gt]
  | .cons j z ms => by
      have ih := place_place h x y ms
      by_cases hk : j < k <;> by_cases hk' : j < k'
      · simp [Members.place, hk, hk', ih]
      · have hlt : k' < k := lt_of_le_of_lt (not_lt.mp hk') hk
        simp [Members.place, hk, hk', hlt]
      · have hlt : k < k' := lt_of_le_of_lt (not_lt.mp hk) hk'
        simp [Members.place, hk, hk', hlt]
      · rcases lt_or_gt_of_ne h with hlt | hlt
        · simp [Members.place, hk, hk', hlt, hlt.not_gt]
        · simp [Members.place, hk, hk', hlt, hlt.not_gt]

theorem Members.Similar.refl : ∀ ms : Members, Members.Similar ms ms
  | .nil => .nil
  | .cons _ x ms => .cons (.refl x) (.refl ms)

theorem similar_place (k : String) (x : Value) : ∀ ms : Members,
    Members.Similar (.cons k x ms) (ms.place k x)
  | .nil => .refl _
  | .cons k' x' ms => by
      rw [Members.place]
      split
      next hlt => exact .trans (.swap hlt.ne') (.cons (.refl x') (similar_place k x ms))
      next => exact .refl _

mutual

theorem similar_canonical : ∀ x : Value, Value.Similar x x.canonical
  | .undefined | .null | .boolean _ | .number _ | .string _ => .refl _
  | .array xs => .array (similar_canonicals xs)
  | .object ms => .object (similar_canonicalMembers ms)

theorem similar_canonicals : ∀ xs : Values, Values.Similar xs xs.canonical
  | .nil => .nil
  | .cons x xs => .cons (similar_canonical x) (similar_canonicals xs)

theorem similar_canonicalMembers : ∀ ms : Members, Members.Similar ms ms.canonical
  | .nil => .nil
  | .cons k x ms =>
      .trans (.cons (similar_canonical x) (similar_canonicalMembers ms)) (similar_place k _ _)

end

mutual

theorem Value.Similar.symm : ∀ {x y : Value}, Value.Similar x y → Value.Similar y x
  | _, _, .refl x => .refl x
  | _, _, .array h => .array h.symm
  | _, _, .object h => .object h.symm

theorem Values.Similar.symm : ∀ {xs ys : Values}, Values.Similar xs ys → Values.Similar ys xs
  | _, _, .nil => .nil
  | _, _, .cons h hs => .cons h.symm hs.symm

theorem Members.Similar.symm : ∀ {ms ns : Members}, Members.Similar ms ns → Members.Similar ns ms
  | _, _, .nil => .nil
  | _, _, .cons h hs => .cons h.symm hs.symm
  | _, _, .swap h => .swap h.symm
  | _, _, .trans h h' => .trans h'.symm h.symm

end

mutual

theorem Value.Similar.canonical_eq : ∀ {x y : Value}, Value.Similar x y → x.canonical = y.canonical
  | _, _, .refl _ => rfl
  | _, _, .array h | _, _, .object h => by rw [Value.canonical, Value.canonical, h.canonical_eq]

theorem Values.Similar.canonical_eq :
    ∀ {xs ys : Values}, Values.Similar xs ys → xs.canonical = ys.canonical
  | _, _, .nil => rfl
  | _, _, .cons h hs => by rw [Values.canonical, Values.canonical, h.canonical_eq, hs.canonical_eq]

theorem Members.Similar.canonical_eq :
    ∀ {ms ns : Members}, Members.Similar ms ns → ms.canonical = ns.canonical
  | _, _, .nil => rfl
  | _, _, .cons h hs => by
      rw [Members.canonical, Members.canonical, h.canonical_eq, hs.canonical_eq]
  | _, _, .swap h => by simp only [Members.canonical, place_place h]
  | _, _, .trans h h' => h.canonical_eq.trans h'.canonical_eq

end

mutual

theorem Value.Similar.trans : ∀ {x y z : Value},
    Value.Similar x y → Value.Similar y z → Value.Similar x z
  | _, _, _, .refl _, h => h
  | _, _, _, h, .refl _ => h
  | _, _, _, .array h, .array h' => .array (h.trans h')
  | _, _, _, .object h, .object h' => .object (.trans h h')

theorem Values.Similar.trans : ∀ {xs ys zs : Values},
    Values.Similar xs ys → Values.Similar ys zs → Values.Similar xs zs
  | _, _, _, .nil, .nil => .nil
  | _, _, _, .cons h hs, .cons h' hs' => .cons (h.trans h') (hs.trans hs')

end

/-- Two values have one canonical value exactly when they differ in the order of members
only. -/
theorem similar_iff {x y : Value} : Value.Similar x y ↔ x.canonical = y.canonical := by
  refine ⟨Value.Similar.canonical_eq, fun h => ?_⟩
  have hy := (similar_canonical y).symm
  rw [← h] at hy
  exact (similar_canonical x).trans hy

/-! ## Text -/

def numberChar (c : Char) : Bool := c.isDigit || ['-', '+', '.', 'e'].contains c

/-- `Number.isFinite(x)` of a number with the given text. -/
def finite (t : String) : Bool := !(chars t).isEmpty && (chars t).all numberChar

mutual

/-- `JSON.stringify(x)`. -/
def Value.stringify : Value → List Char
  | .undefined => chars "null"
  | .null => chars "null"
  | .boolean true => chars "true"
  | .boolean false => chars "false"
  | .number t => if finite t then chars t else chars "null"
  | .string s => quotedChars s
  | .array xs => '[' :: xs.stringify
  | .object ms => '\x7b' :: ms.stringify

def Values.stringify : Values → List Char
  | .nil => [']']
  | .cons x xs => x.stringify ++ xs.stringifyRest

def Values.stringifyRest : Values → List Char
  | .nil => [']']
  | .cons x xs => ',' :: x.stringify ++ xs.stringifyRest

def Members.stringify : Members → List Char
  | .nil => ['\x7d']
  | .cons k x ms => quotedChars k ++ ':' :: x.stringify ++ ms.stringifyRest

def Members.stringifyRest : Members → List Char
  | .nil => ['\x7d']
  | .cons k x ms => ',' :: quotedChars k ++ ':' :: x.stringify ++ ms.stringifyRest

end

mutual

/-- A value that JSON can express: every number in it is finite. -/
def Value.plain : Value → Bool
  | .undefined => false
  | .null => true
  | .boolean _ => true
  | .number t => finite t
  | .string _ => true
  | .array xs => xs.plain
  | .object ms => ms.plain

def Values.plain : Values → Bool
  | .nil => true
  | .cons x xs => x.plain && xs.plain

def Members.plain : Members → Bool
  | .nil => true
  | .cons _ x ms => x.plain && ms.plain

end

/-- The first character of an escaped text and the rest. -/
def unescape : List Char → Option (Char × List Char)
  | [] => none
  | '\\' :: 'u' :: '0' :: '0' :: a :: b :: cs => do
      let high ← hexValue a
      let low ← hexValue b
      return (Char.ofNat (16 * high + low), cs)
  | '\\' :: 'n' :: cs => some ('\n', cs)
  | '\\' :: 'r' :: cs => some ('\r', cs)
  | '\\' :: 't' :: cs => some ('\t', cs)
  | '\\' :: 'b' :: cs => some (Char.ofNat 8, cs)
  | '\\' :: 'f' :: cs => some (Char.ofNat 12, cs)
  | '\\' :: c :: cs => some (c, cs)
  | c :: cs => some (c, cs)

theorem unescape_of_ne {c : Char} (h : c ≠ '\\') (cs : List Char) :
    unescape (c :: cs) = some (c, cs) := by
  unfold unescape
  split <;> simp_all

theorem unescape_escapeChar (c : Char) (cs : List Char) :
    unescape (escapeChar c ++ cs) = some (c, cs) := by
  by_cases hcontrol : c.toNat < 32
  · obtain ⟨n, hn, rfl⟩ : ∃ n < 32, c = Char.ofNat n := ⟨c.toNat, hcontrol, (Char.ofNat_toNat c).symm⟩
    interval_cases n <;> rfl
  · by_cases hquote : c = '"'
    · subst hquote
      rfl
    · by_cases hslash : c = '\\'
      · subst hslash
        rfl
      · have hplain : escapeChar c = [c] := by
          have hne : ∀ d : Char, d.toNat < 32 → c ≠ d := by
            rintro d hd rfl
            exact hcontrol hd
          simp only [escapeChar, if_neg hquote, if_neg hslash, if_neg (hne '\n' (by decide)),
            if_neg (hne '\r' (by decide)), if_neg (hne '\t' (by decide)), if_neg hcontrol,
            if_neg (show c.toNat ≠ 8 by omega), if_neg (show c.toNat ≠ 12 by omega)]
        rw [hplain]
        exact unescape_of_ne hslash cs

theorem escapeChar_head (c : Char) (cs : List Char) : (escapeChar c ++ cs).head? ≠ some '"' := by
  intro h
  by_cases hquote : c = '"'
  · subst hquote
    cases h
  · unfold escapeChar at h
    split_ifs at h <;> simp_all

theorem escape_append {l m cs ds : List Char}
    (h : l.flatMap escapeChar ++ '"' :: cs = m.flatMap escapeChar ++ '"' :: ds) :
    l = m ∧ cs = ds := by
  induction l generalizing m with
  | nil =>
      cases m with
      | nil => exact ⟨rfl, List.tail_eq_of_cons_eq h⟩
      | cons d m =>
          rw [List.flatMap_cons, List.append_assoc] at h
          exact absurd (congrArg List.head? h).symm (escapeChar_head d _)
  | cons c l ih =>
      cases m with
      | nil =>
          rw [List.flatMap_cons, List.append_assoc] at h
          exact absurd (congrArg List.head? h) (escapeChar_head c _)
      | cons d m =>
          rw [List.flatMap_cons, List.append_assoc, List.flatMap_cons, List.append_assoc] at h
          have hread := congrArg unescape h
          rw [unescape_escapeChar, unescape_escapeChar, Option.some.injEq, Prod.mk.injEq] at hread
          obtain ⟨rfl, hrest⟩ := hread
          obtain ⟨rfl, rfl⟩ := ih hrest
          exact ⟨rfl, rfl⟩

theorem chars_injective {s t : String} (h : chars s = chars t) : s = t := by
  rw [chars_eq, chars_eq] at h
  exact String.toList_injective h

theorem quotedChars_append {s t : String} {cs ds : List Char}
    (h : quotedChars s ++ cs = quotedChars t ++ ds) : s = t ∧ cs = ds := by
  simp only [quotedChars, List.cons_append, List.append_assoc, List.nil_append, List.cons.injEq,
    true_and] at h
  obtain ⟨hchars, hrest⟩ := escape_append h
  exact ⟨chars_injective hchars, hrest⟩

/-- A number cannot go on with the text. -/
def Ends (cs : List Char) : Prop := ∀ c ∈ cs.head?, numberChar c = false

theorem ends_rest (xs : Values) (cs : List Char) : Ends (xs.stringifyRest ++ cs) := by
  cases xs <;> (intro c hc; cases hc; decide)

theorem ends_memberRest (ms : Members) (cs : List Char) : Ends (ms.stringifyRest ++ cs) := by
  cases ms <;> (intro c hc; cases hc; decide)

theorem finite_cons {t : String} (h : finite t = true) :
    ∃ c cs, chars t = c :: cs ∧ numberChar c = true := by
  simp only [finite, Bool.and_eq_true, List.all_eq_true] at h
  cases ht : chars t with
  | nil => simp [ht] at h
  | cons c cs => exact ⟨c, cs, rfl, h.2 c (by simp [ht])⟩

theorem number_append {l m cs ds : List Char} (hl : ∀ c ∈ l, numberChar c = true)
    (hm : ∀ c ∈ m, numberChar c = true) (hcs : Ends cs) (hds : Ends ds)
    (h : l ++ cs = m ++ ds) : l = m ∧ cs = ds := by
  induction l generalizing m with
  | nil =>
      cases m with
      | nil => exact ⟨rfl, h⟩
      | cons d m =>
          have hno := hcs d (by simp only [List.nil_append] at h; simp [h])
          rw [hm d (List.mem_cons_self ..)] at hno
          cases hno
  | cons c l ih =>
      cases m with
      | nil =>
          have hno := hds c (by simp only [List.nil_append] at h; simp [← h])
          rw [hl c (List.mem_cons_self ..)] at hno
          cases hno
      | cons d m =>
          rw [List.cons_append, List.cons_append, List.cons.injEq] at h
          obtain ⟨rfl, hrest⟩ := h
          obtain ⟨rfl, rfl⟩ := ih (fun c hc => hl c (List.mem_cons_of_mem _ hc))
            (fun c hc => hm c (List.mem_cons_of_mem _ hc)) hrest
          exact ⟨rfl, rfl⟩

/-- The characters a text can begin with, by the kind of its value. -/
def Value.lead (x : Value) (c : Char) : Prop :=
  match x with
  | .undefined => False
  | .null => c = 'n'
  | .boolean true => c = 't'
  | .boolean false => c = 'f'
  | .number _ => numberChar c = true
  | .string _ => c = '"'
  | .array _ => c = '['
  | .object _ => c = '\x7b'

theorem stringify_lead {x : Value} (h : x.plain = true) (cs : List Char) :
    ∃ c ds, x.stringify ++ cs = c :: ds ∧ x.lead c := by
  cases x with
  | undefined => cases h
  | number t =>
      obtain ⟨c, ds, ht, hc⟩ := finite_cons h
      refine ⟨c, ds ++ cs, ?_, hc⟩
      rw [Value.plain] at h
      rw [Value.stringify, if_pos h, ht]
      rfl
  | boolean b => cases b <;> exact ⟨_, _, rfl, rfl⟩
  | _ => exact ⟨_, _, rfl, rfl⟩

def Value.kind : Value → Nat
  | .undefined => 0
  | .null => 1
  | .boolean true => 2
  | .boolean false => 3
  | .number _ => 4
  | .string _ => 5
  | .array _ => 6
  | .object _ => 7

theorem kind_of_lead {x : Value} {c : Char} (h : x.lead c) : x.kind =
    if c = 'n' then 1 else if c = 't' then 2 else if c = 'f' then 3 else if numberChar c then 4
    else if c = '"' then 5 else if c = '[' then 6 else 7 := by
  cases x with
  | undefined => cases h
  | number t =>
      have hne : ∀ d : Char, numberChar d = false → c ≠ d := by
        rintro d hd rfl
        rw [Value.lead, hd] at h
        cases h
      rw [Value.lead] at h
      simp [Value.kind, hne 'n' (by decide), hne 't' (by decide), hne 'f' (by decide), h]
  | boolean b =>
      cases b with
      | true =>
          obtain rfl : c = 't' := h
          rfl
      | false =>
          obtain rfl : c = 'f' := h
          rfl
  | _ =>
      cases h
      rfl

theorem kind_eq {x y : Value} {cs ds : List Char} (hx : x.plain = true) (hy : y.plain = true)
    (h : x.stringify ++ cs = y.stringify ++ ds) : x.kind = y.kind := by
  obtain ⟨c, xs, hxs, hxc⟩ := stringify_lead hx cs
  obtain ⟨d, ys, hys, hyd⟩ := stringify_lead hy ds
  rw [hxs, hys, List.cons.injEq] at h
  rw [kind_of_lead hxc, kind_of_lead hyd, h.1]

theorem stringify_not_closed {x : Value} (h : x.plain = true) (cs ds : List Char) :
    x.stringify ++ cs ≠ ']' :: ds := by
  intro heq
  obtain ⟨c, xs, hxs, hlead⟩ := stringify_lead h cs
  rw [hxs, List.cons.injEq] at heq
  rw [heq.1] at hlead
  cases x with
  | boolean b => cases b <;> exact absurd hlead (by unfold Value.lead; decide)
  | undefined => exact hlead
  | _ =>
      dsimp only [Value.lead] at hlead
      exact absurd hlead (by decide)

theorem member_append {k k' : String} {cs ds : List Char}
    (h : quotedChars k ++ ':' :: cs = quotedChars k' ++ ':' :: ds) : k = k' ∧ cs = ds := by
  obtain ⟨hk, hrest⟩ := quotedChars_append h
  exact ⟨hk, List.tail_eq_of_cons_eq hrest⟩

theorem plain_place (k : String) (x : Value) : ∀ ms : Members,
    (ms.place k x).plain = (x.plain && ms.plain)
  | .nil => rfl
  | .cons k' y ms => by
      rw [Members.place]
      split
      · rw [Members.plain, Members.plain, plain_place k x ms, Bool.and_left_comm]
      · rfl

mutual

theorem stringify_append : ∀ {x y : Value} {cs ds : List Char}, x.plain = true → y.plain = true →
    Ends cs → Ends ds → x.stringify ++ cs = y.stringify ++ ds → x = y ∧ cs = ds
  | .undefined, _, _, _, hx, _, _, _, _ => by cases hx
  | .null, y, cs, ds, hx, hy, _, _, h => by
      have hkind := kind_eq hx hy h
      cases y with
      | null => exact ⟨rfl, List.append_cancel_left h⟩
      | boolean b => cases b <;> cases hkind
      | _ => cases hkind
  | .boolean b, y, cs, ds, hx, hy, _, _, h => by
      have hkind := kind_eq hx hy h
      cases y with
      | boolean b' =>
          cases b <;> cases b' <;> first | exact ⟨rfl, List.append_cancel_left h⟩ | cases hkind
      | _ => cases b <;> cases hkind
  | .number t, y, cs, ds, hx, hy, hcs, hds, h => by
      have hkind := kind_eq hx hy h
      cases y with
      | number u =>
          rw [Value.plain] at hx hy
          rw [Value.stringify, Value.stringify, if_pos hx, if_pos hy] at h
          simp only [finite, Bool.and_eq_true, List.all_eq_true] at hx hy
          obtain ⟨hchars, rfl⟩ := number_append hx.2 hy.2 hcs hds h
          rw [chars_injective hchars]
          exact ⟨rfl, rfl⟩
      | boolean b => cases b <;> cases hkind
      | _ => cases hkind
  | .string s, y, cs, ds, hx, hy, _, _, h => by
      have hkind := kind_eq hx hy h
      cases y with
      | string t =>
          obtain ⟨rfl, rfl⟩ := quotedChars_append h
          exact ⟨rfl, rfl⟩
      | boolean b => cases b <;> cases hkind
      | _ => cases hkind
  | .array xs, y, cs, ds, hx, hy, _, _, h => by
      have hkind := kind_eq hx hy h
      cases y with
      | array ys =>
          obtain ⟨rfl, rfl⟩ := stringifyValues_append hx hy (List.tail_eq_of_cons_eq h)
          exact ⟨rfl, rfl⟩
      | boolean b => cases b <;> cases hkind
      | _ => cases hkind
  | .object ms, y, cs, ds, hx, hy, _, _, h => by
      have hkind := kind_eq hx hy h
      cases y with
      | object ns =>
          obtain ⟨rfl, rfl⟩ := stringifyMembers_append hx hy (List.tail_eq_of_cons_eq h)
          exact ⟨rfl, rfl⟩
      | boolean b => cases b <;> cases hkind
      | _ => cases hkind

theorem stringifyValues_append : ∀ {xs ys : Values} {cs ds : List Char}, xs.plain = true →
    ys.plain = true → xs.stringify ++ cs = ys.stringify ++ ds → xs = ys ∧ cs = ds
  | .nil, .nil, _, _, _, _, h => ⟨rfl, List.tail_eq_of_cons_eq h⟩
  | .nil, .cons y ys, _, _, _, hy, h => by
      rw [Values.plain, Bool.and_eq_true] at hy
      rw [Values.stringify, Values.stringify, List.append_assoc] at h
      exact absurd h.symm (stringify_not_closed hy.1 _ _)
  | .cons x xs, .nil, _, _, hx, _, h => by
      rw [Values.plain, Bool.and_eq_true] at hx
      rw [Values.stringify, Values.stringify, List.append_assoc] at h
      exact absurd h (stringify_not_closed hx.1 _ _)
  | .cons x xs, .cons y ys, _, _, hx, hy, h => by
      rw [Values.plain, Bool.and_eq_true] at hx hy
      rw [Values.stringify, Values.stringify, List.append_assoc, List.append_assoc] at h
      obtain ⟨rfl, hrest⟩ :=
        stringify_append hx.1 hy.1 (ends_rest xs _) (ends_rest ys _) h
      obtain ⟨rfl, rfl⟩ := stringifyValuesRest_append hx.2 hy.2 hrest
      exact ⟨rfl, rfl⟩

theorem stringifyValuesRest_append : ∀ {xs ys : Values} {cs ds : List Char}, xs.plain = true →
    ys.plain = true → xs.stringifyRest ++ cs = ys.stringifyRest ++ ds → xs = ys ∧ cs = ds
  | .nil, .nil, _, _, _, _, h => ⟨rfl, List.tail_eq_of_cons_eq h⟩
  | .nil, .cons y ys, _, _, _, hy, h | .cons x xs, .nil, _, _, hx, _, h =>
      absurd (List.head_eq_of_cons_eq h) (by decide)
  | .cons x xs, .cons y ys, _, _, hx, hy, h => by
      rw [Values.plain, Bool.and_eq_true] at hx hy
      rw [Values.stringifyRest, Values.stringifyRest, List.cons_append, List.cons_append,
        List.append_assoc, List.append_assoc] at h
      obtain ⟨rfl, hrest⟩ := stringify_append hx.1 hy.1 (ends_rest xs _) (ends_rest ys _)
        (List.tail_eq_of_cons_eq h)
      obtain ⟨rfl, rfl⟩ := stringifyValuesRest_append hx.2 hy.2 hrest
      exact ⟨rfl, rfl⟩

theorem stringifyMembers_append : ∀ {ms ns : Members} {cs ds : List Char}, ms.plain = true →
    ns.plain = true → ms.stringify ++ cs = ns.stringify ++ ds → ms = ns ∧ cs = ds
  | .nil, .nil, _, _, _, _, h => ⟨rfl, List.tail_eq_of_cons_eq h⟩
  | .nil, .cons k y ns, _, _, _, hy, h | .cons k x ms, .nil, _, _, hx, _, h =>
      absurd (List.head_eq_of_cons_eq h) (by decide)
  | .cons k x ms, .cons k' y ns, _, _, hx, hy, h => by
      rw [Members.plain, Bool.and_eq_true] at hx hy
      obtain ⟨rfl, htext⟩ := member_append (by simpa [Members.stringify] using h)
      obtain ⟨rfl, hrest⟩ :=
        stringify_append hx.1 hy.1 (ends_memberRest ms _) (ends_memberRest ns _) htext
      obtain ⟨rfl, rfl⟩ := stringifyMembersRest_append hx.2 hy.2 hrest
      exact ⟨rfl, rfl⟩

theorem stringifyMembersRest_append : ∀ {ms ns : Members} {cs ds : List Char}, ms.plain = true →
    ns.plain = true → ms.stringifyRest ++ cs = ns.stringifyRest ++ ds → ms = ns ∧ cs = ds
  | .nil, .nil, _, _, _, _, h => ⟨rfl, List.tail_eq_of_cons_eq h⟩
  | .nil, .cons k y ns, _, _, _, hy, h | .cons k x ms, .nil, _, _, hx, _, h =>
      absurd (List.head_eq_of_cons_eq h) (by decide)
  | .cons k x ms, .cons k' y ns, _, _, hx, hy, h => by
      rw [Members.plain, Bool.and_eq_true] at hx hy
      obtain ⟨rfl, htext⟩ := member_append (by simpa [Members.stringifyRest] using h)
      obtain ⟨rfl, hrest⟩ :=
        stringify_append hx.1 hy.1 (ends_memberRest ms _) (ends_memberRest ns _) htext
      obtain ⟨rfl, rfl⟩ := stringifyMembersRest_append hx.2 hy.2 hrest
      exact ⟨rfl, rfl⟩

end

/-- No two values have the same text. -/
theorem stringify_injective {x y : Value} (hx : x.plain = true) (hy : y.plain = true)
    (h : x.stringify = y.stringify) : x = y := by
  have hends : Ends [] := fun c hc => (nomatch hc)
  have happend : x.stringify ++ [] = y.stringify ++ [] := by rw [h]
  exact (stringify_append hx hy hends hends happend).1

mutual

theorem plain_canonical : ∀ x : Value, x.canonical.plain = x.plain
  | .undefined => rfl
  | .null => rfl
  | .boolean _ => rfl
  | .number _ => rfl
  | .string _ => rfl
  | .array xs => by rw [Value.canonical, Value.plain, Value.plain, plain_canonicals]
  | .object ms => by rw [Value.canonical, Value.plain, Value.plain, plain_canonicalMembers]

theorem plain_canonicals : ∀ xs : Values, xs.canonical.plain = xs.plain
  | .nil => rfl
  | .cons x xs => by
      rw [Values.canonical, Values.plain, Values.plain, plain_canonical, plain_canonicals]

theorem plain_canonicalMembers : ∀ ms : Members, ms.canonical.plain = ms.plain
  | .nil => rfl
  | .cons k x ms => by
      rw [Members.canonical, plain_place, plain_canonical, plain_canonicalMembers, Members.plain]

end

/-- The text of the canonical value stands for the value up to the order of members. -/
theorem stringify_canonical_iff {x y : Value} (hx : x.plain = true) (hy : y.plain = true) :
    x.canonical.stringify = y.canonical.stringify ↔ Value.Similar x y := by
  rw [similar_iff]
  constructor
  · exact stringify_injective (by rw [plain_canonical, hx]) (by rw [plain_canonical, hy])
  · exact congrArg Value.stringify

/-! ## Numbers -/

/-- `coeff * 10 ^ exp`. -/
structure Decimal where
  coeff : Int
  exp : Int

def Decimal.ofText (t : String) : Option Decimal := do
  let mantissa := (chars t).takeWhile (· != 'e')
  let power := (chars t).dropWhile (· != 'e')
  let fraction := (mantissa.dropWhile (· != '.')).drop 1
  let coeff ← castSigned (mantissa.takeWhile (· != '.') ++ fraction)
  let exp ← if power.isEmpty then some 0 else castSigned (power.drop 1)
  return ⟨coeff, exp - fraction.length⟩

/-- `x < y`. -/
def Decimal.lt (x y : Decimal) : Bool :=
  decide (x.coeff * 10 ^ (x.exp - min x.exp y.exp).toNat <
    y.coeff * 10 ^ (y.exp - min x.exp y.exp).toNat)

/-- `Number.isSafeInteger(x)`. -/
def Decimal.safeInteger (x : Decimal) : Bool :=
  decide (x.coeff % 10 ^ (-x.exp).toNat = 0) &&
    !(⟨maxSafeInteger, 0⟩ : Decimal).lt x && !x.lt ⟨-maxSafeInteger, 0⟩

/-! ## Documents -/

def numberDocument (t : String) : Jsonb :=
  match if finite t then Decimal.ofText t else none with
  | some d => ⟨.num (d.coeff * 10 ^ d.exp.toNat) (-d.exp).toNat, rfl⟩
  | none => .null

def arrayDocument (l : List Jsonb) : Jsonb :=
  ⟨.arr (l.foldr (fun x rest => .cons x.tree rest) .nil), by
    induction l with
    | nil => rfl
    | cons x l ih => exact Bool.and_eq_true_iff.mpr ⟨x.ordered, ih⟩⟩

/-- A text without the character that no `jsonb` holds. -/
def textDocument (s : String) : Option String :=
  if (chars s).any fun c => c.toNat == 0 then none else some s

mutual

/-- `JSON.stringify(x)::jsonb`, if the cast accepts it. -/
def Value.document : Value → Option Jsonb
  | .undefined => some .null
  | .null => some .null
  | .boolean b => some (.ofBool b)
  | .number t => some (numberDocument t)
  | .string s => (textDocument s).map .ofText
  | .array xs => xs.documents.map arrayDocument
  | .object ms => ms.documents.map .object

def Values.documents : Values → Option (List Jsonb)
  | .nil => some []
  | .cons x xs => do
      let x ← x.document
      let xs ← xs.documents
      return x :: xs

def Members.documents : Members → Option (List (String × Jsonb))
  | .nil => some []
  | .cons k x ms => do
      let k ← textDocument k
      let x ← x.document
      let ms ← ms.documents
      return (k, x) :: ms

end

/-! ## Objects -/

/-- `xs.length`. -/
def Values.length : Values → Nat
  | .nil => 0
  | .cons _ xs => xs.length + 1

def Values.toList : Values → List Value
  | .nil => []
  | .cons x xs => x :: xs.toList

def Values.ofList : List Value → Values
  | [] => .nil
  | x :: xs => .cons x (.ofList xs)

def Members.ofList : List (String × Value) → Members
  | [] => .nil
  | (k, x) :: ms => .cons k x (.ofList ms)

def Value.ofList (ms : List (String × Value)) : Value := .object (.ofList ms)

/-- `!!x`. -/
def Value.truthy : Value → Bool
  | .undefined => false
  | .null => false
  | .boolean b => b
  | .number t => t != "0" && t != "NaN"
  | .string s => s != ""
  | .array _ => true
  | .object _ => true

/-- `x || y`. -/
def Value.or (x y : Value) : Value := if x.truthy then x else y

end Js
