import Mathlib.Data.List.Basic

/-!
# Splitting a text

`t.split(r)` cuts a text at every match of `r`, from the left.  A separator is given by what
follows its match at the beginning of a text, so what `r` matches stays with its owner.

The pieces with what was between them are the text again (`joined_split`), and pieces that
leave no room for a separator come back from the text they are joined to (`split_joined`).
-/

namespace Js

variable {ts : List (List Char)} {cs : List Char}

/-- What follows a match at the beginning of a text, if there is one. -/
abbrev Separator := List Char → Option (List Char)

def splitFrom (sep : Separator) : Nat → List Char → List (List Char)
  | 0, cs => [cs]
  | _ + 1, [] => [[]]
  | n + 1, c :: cs =>
      match sep (c :: cs) with
      | some rest => [] :: splitFrom sep n rest
      | none => (splitFrom sep n cs).modifyHead (c :: ·)

/-- `t.split(r)`. -/
def split (sep : Separator) (cs : List Char) : List (List Char) := splitFrom sep cs.length cs

/-- Some pieces, and the text that they are with a separator between each two. -/
inductive Joined (between : List Char → Prop) : List (List Char) → List Char → Prop where
  | one (t : List Char) : Joined between [t] t
  | more {t s rest : List Char} {ts : List (List Char)} :
      between s → Joined between ts rest → Joined between (t :: ts) (t ++ (s ++ rest))

variable {between : List Char → Prop} {sep : Separator}

theorem Joined.cons (h : Joined between ts cs) (c : Char) :
    Joined between (ts.modifyHead (c :: ·)) (c :: cs) := by
  cases h with
  | one t => exact .one (c :: cs)
  | more hs hrest => exact .more hs hrest

theorem Joined.head (h : Joined between ts cs) :
    ∃ t ∈ ts, ∃ rest, cs = t ++ rest := by
  cases h with
  | one t => exact ⟨cs, List.mem_singleton_self cs, [], (List.append_nil cs).symm⟩
  | more hs hrest => exact ⟨_, List.mem_cons_self .., _, rfl⟩

theorem joined_splitFrom (hsep : ∀ cs rest, sep cs = some rest → ∃ s, between s ∧ cs = s ++ rest)
    (n : Nat) (cs : List Char) : Joined between (splitFrom sep n cs) cs := by
  induction n generalizing cs with
  | zero => exact .one cs
  | succ n ih =>
      cases cs with
      | nil => exact .one []
      | cons c cs =>
          rw [splitFrom]
          split
          next rest hrest =>
            obtain ⟨s, hs, heq⟩ := hsep _ _ hrest
            rw [heq]
            exact .more (t := []) hs (ih rest)
          next => exact (ih cs).cons c

theorem joined_split (hsep : ∀ cs rest, sep cs = some rest → ∃ s, between s ∧ cs = s ++ rest)
    (cs : List Char) : Joined between (split sep cs) cs :=
  joined_splitFrom hsep _ cs

theorem splitFrom_append {n : Nat} {u rest : List Char} (hn : u.length ≤ n)
    (hnone : ∀ t v, u = t ++ v → v ≠ [] → sep (v ++ rest) = none) :
    splitFrom sep n (u ++ rest) = (splitFrom sep (n - u.length) rest).modifyHead (u ++ ·) := by
  induction u generalizing n with
  | nil =>
      show splitFrom sep n rest = _
      rw [List.length_nil, Nat.sub_zero]
      cases splitFrom sep n rest with
      | nil => rfl
      | cons t ts => rfl
  | cons c u ih =>
      obtain ⟨m, rfl⟩ : ∃ m, n = m + 1 := ⟨n - 1, by simp only [List.length_cons] at hn; omega⟩
      have hfirst : sep (c :: (u ++ rest)) = none := hnone [] (c :: u) rfl (List.cons_ne_nil c u)
      have hothers := ih (n := m) (by simpa using hn) fun t v heq hv =>
        hnone (c :: t) v (by rw [heq]; rfl) hv
      rw [List.cons_append, splitFrom, hfirst]
      show (splitFrom sep m (u ++ rest)).modifyHead (c :: ·) = _
      rw [hothers, List.modifyHead_modifyHead, List.length_cons, Nat.add_sub_add_right]
      rfl

variable {clean : List Char → Prop}
  (hnone : ∀ t v rest, clean (t ++ v) → v ≠ [] → sep (v ++ rest) = none)
  (hsome : ∀ s t rest, between s → clean t → s ≠ [] ∧ sep (s ++ (t ++ rest)) = some (t ++ rest))
  (h : Joined between ts cs) (hclean : ∀ t ∈ ts, clean t)

include hnone hsome h hclean

/-- Pieces that leave no room for a separator come back. -/
theorem splitFrom_joined : ∀ {n : Nat}, cs.length ≤ n → splitFrom sep n cs = ts := by
  induction h with
  | one t =>
      intro n hn
      have hempty : ∀ m, splitFrom sep m [] = [[]] := fun m => by cases m <;> rfl
      have hpiece : splitFrom sep n (t ++ []) =
          (splitFrom sep (n - t.length) []).modifyHead (t ++ ·) :=
        splitFrom_append hn fun u v heq hv =>
          hnone u v [] (heq ▸ hclean t (List.mem_singleton_self t)) hv
      rw [List.append_nil, hempty] at hpiece
      rw [hpiece, List.modifyHead_cons, List.append_nil]
  | @more t s rest ts hs hrest ih =>
      intro n hn
      obtain ⟨hfirst, hothers⟩ := List.forall_mem_cons.mp hclean
      obtain ⟨t', ht', rest', rfl⟩ := hrest.head
      obtain ⟨hne, hsep⟩ := hsome s t' rest' hs (hothers t' ht')
      have hlength : t.length + (s.length + (t' ++ rest').length) ≤ n := by
        simpa only [List.length_append] using hn
      have hpositive : 0 < s.length := List.length_pos_iff.mpr hne
      rw [splitFrom_append (by omega) fun u v heq hv => hnone u v _ (heq ▸ hfirst) hv]
      obtain ⟨m, hm⟩ : ∃ m, n - t.length = m + 1 := ⟨n - t.length - 1, by omega⟩
      obtain ⟨c, s, rfl⟩ := List.exists_cons_of_ne_nil hne
      rw [hm, List.cons_append, splitFrom, ← List.cons_append, hsep]
      show ([] :: splitFrom sep m (t' ++ rest')).modifyHead (t ++ ·) = t :: ts
      simp only [List.length_cons] at hlength
      rw [ih hothers (by omega), List.modifyHead_cons, List.append_nil]

theorem split_joined : split sep cs = ts :=
  splitFrom_joined hnone hsome h hclean (Nat.le_refl _)

end Js
