import Mathlib.Data.Nat.Init
import OpenSphere.Sql.Text

/-!
# UTF-16 texts

A text of the language is a list of code units, and need not be one of characters: half a pair
may stand alone.  `JSON.stringify` writes such a half as an escape, so that what it writes is
always a text of characters.

`scan_quoted` says that every text comes back from its quotes.
-/

open Sql (hexValue)

namespace Js

abbrev CodeUnit := Fin 65536

abbrev Utf16 := List CodeUnit

instance neZeroUnit : NeZero 65536 := ⟨by decide⟩

instance : LawfulBEq Utf16 := inferInstance

def leading (u : CodeUnit) : Prop := 0xD800 ≤ u.val ∧ u.val < 0xDC00

def trailing (u : CodeUnit) : Prop := 0xDC00 ≤ u.val ∧ u.val < 0xE000

instance (u : CodeUnit) : Decidable (leading u) := inferInstanceAs (Decidable (_ ∧ _))

instance (u : CodeUnit) : Decidable (trailing u) := inferInstanceAs (Decidable (_ ∧ _))

def pairChar (u v : CodeUnit) : Char :=
  Char.ofNat (0x10000 + (u.val - 0xD800) * 0x400 + (v.val - 0xDC00))

def unitsOf (c : Char) : Utf16 :=
  if c.toNat < 0x10000 then [Fin.ofNat _ c.toNat]
  else [Fin.ofNat _ (0xD800 + (c.toNat - 0x10000) / 0x400),
    Fin.ofNat _ (0xDC00 + (c.toNat - 0x10000) % 0x400)]

def utf16 (cs : List Char) : Utf16 := cs.flatMap unitsOf

def literal (s : String) : Utf16 := utf16 (Sql.chars s)

/-! ## Quotes -/

def hexUnit (u : CodeUnit) : List Char :=
  [Nat.digitChar (u.val / 4096), Nat.digitChar (u.val / 256 % 16), Nat.digitChar (u.val / 16 % 16),
    Nat.digitChar (u.val % 16)]

def quoteUnit (u : CodeUnit) : List Char :=
  if u = 0x22 then ['\\', '"']
  else if u = 0x5C then ['\\', '\\']
  else if u = 0x08 then ['\\', 'b']
  else if u = 0x0C then ['\\', 'f']
  else if u = 0x0A then ['\\', 'n']
  else if u = 0x0D then ['\\', 'r']
  else if u = 0x09 then ['\\', 't']
  else if u.val < 0x20 ∨ leading u ∨ trailing u then '\\' :: 'u' :: hexUnit u
  else [Char.ofNat u.val]

def quoteUnits : Utf16 → List Char
  | [] => []
  | [u] => quoteUnit u
  | u :: v :: us =>
      if leading u ∧ trailing v then pairChar u v :: quoteUnits us
      else quoteUnit u ++ quoteUnits (v :: us)

/-- `JSON.stringify` of a text. -/
def quoteText (s : Utf16) : List Char := '"' :: (quoteUnits s ++ ['"'])

/-! ## Reading -/

def escapeUnit (c : Char) : Option CodeUnit :=
  if c = '"' then some 0x22
  else if c = '\\' then some 0x5C
  else if c = '/' then some 0x2F
  else if c = 'b' then some 0x08
  else if c = 'f' then some 0x0C
  else if c = 'n' then some 0x0A
  else if c = 'r' then some 0x0D
  else if c = 't' then some 0x09
  else none

def readHex (a b c d : Char) : Option CodeUnit := do
  let w ← hexValue a
  let x ← hexValue b
  let y ← hexValue c
  let z ← hexValue d
  return Fin.ofNat _ (w * 4096 + x * 256 + y * 16 + z)

def scanEscape : List Char → Option (Utf16 × List Char)
  | 'u' :: a :: b :: c :: d :: cs => (readHex a b c d).map fun u => ([u], cs)
  | c :: cs => (escapeUnit c).map fun u => ([u], cs)
  | [] => none

def scanUnits : List Char → Option (Utf16 × List Char)
  | [] => none
  | c :: cs =>
      if c = '\\' then scanEscape cs
      else if c.toNat < 0x20 then none
      else some (unitsOf c, cs)

/-- A text after its first quote, of at most so many characters. -/
def scanString : ℕ → List Char → Option (Utf16 × List Char)
  | 0, _ => none
  | n + 1, cs =>
      if cs.head? = some '"' then some ([], cs.tail)
      else do
        let (us, cs) ← scanUnits cs
        let (s, cs) ← scanString n cs
        return (us ++ s, cs)

/-! ## The round trip -/

theorem toNat_ofNat {n : ℕ} (h : n < 0xD800 ∨ 0xE000 ≤ n ∧ n < 0x110000) :
    (Char.ofNat n).toNat = n := by
  have hvalid : n.isValidChar := by
    unfold Nat.isValidChar
    omega
  rw [Char.ofNat, dif_pos hvalid]
  rfl

theorem unitsOf_pairChar {u v : CodeUnit} (hu : leading u) (hv : trailing v) :
    unitsOf (pairChar u v) = [u, v] := by
  obtain ⟨hulo, huhi⟩ := hu
  obtain ⟨hvlo, hvhi⟩ := hv
  rw [pairChar, unitsOf, toNat_ofNat (by omega), if_neg (by omega)]
  have hfirst : Fin.ofNat 65536 (0xD800 + ((0x10000 + (u.val - 0xD800) * 0x400 + (v.val - 0xDC00)) -
      0x10000) / 0x400) = u := by
    apply Fin.ext
    rw [Fin.val_ofNat, Nat.mod_eq_of_lt (by omega)]
    omega
  have hsecond : Fin.ofNat 65536 (0xDC00 + ((0x10000 + (u.val - 0xD800) * 0x400 + (v.val - 0xDC00)) -
      0x10000) % 0x400) = v := by
    apply Fin.ext
    rw [Fin.val_ofNat, Nat.mod_eq_of_lt (by omega)]
    omega
  rw [hfirst, hsecond]

theorem unitsOf_ofNat {u : CodeUnit} (hu : ¬ leading u) (hu' : ¬ trailing u) :
    unitsOf (Char.ofNat u.val) = [u] := by
  have hlt := u.isLt
  unfold leading at hu
  unfold trailing at hu'
  rw [unitsOf, toNat_ofNat (by omega), if_pos hlt, Fin.ofNat_val_eq_self]

theorem hexValue_digitChar : ∀ n < 16, hexValue (Nat.digitChar n) = some n := by decide

theorem readHex_hexUnit (u : CodeUnit) :
    readHex (Nat.digitChar (u.val / 4096)) (Nat.digitChar (u.val / 256 % 16))
      (Nat.digitChar (u.val / 16 % 16)) (Nat.digitChar (u.val % 16)) = some u := by
  have hlt := u.isLt
  rw [readHex, hexValue_digitChar _ (by omega), hexValue_digitChar _ (by omega),
    hexValue_digitChar _ (by omega), hexValue_digitChar _ (by omega)]
  refine congrArg some (Fin.ext ?_)
  rw [Fin.val_ofNat, Nat.mod_eq_of_lt (by omega)]
  omega

theorem scanUnits_quoteUnit (u : CodeUnit) (cs : List Char) :
    scanUnits (quoteUnit u ++ cs) = some ([u], cs) ∧ (quoteUnit u ++ cs).head? ≠ some '"' := by
  unfold quoteUnit
  split_ifs with h22 h5C h08 h0C h0A h0D h09 hescape
  · exact ⟨by rw [h22]; rfl, by simp⟩
  · exact ⟨by rw [h5C]; rfl, by simp⟩
  · exact ⟨by rw [h08]; rfl, by simp⟩
  · exact ⟨by rw [h0C]; rfl, by simp⟩
  · exact ⟨by rw [h0A]; rfl, by simp⟩
  · exact ⟨by rw [h0D]; rfl, by simp⟩
  · exact ⟨by rw [h09]; rfl, by simp⟩
  · refine ⟨?_, by simp⟩
    show (readHex _ _ _ _).map _ = _
    rw [readHex_hexUnit]
    rfl
  · push Not at hescape
    obtain ⟨hlo, hlead, htrail⟩ := hescape
    have hval : (Char.ofNat u.val).toNat = u.val := by
      have hlt := u.isLt
      unfold leading at hlead
      unfold trailing at htrail
      exact toNat_ofNat (by omega)
    have hne : ∀ c : Char, c.toNat < 65536 → u ≠ Fin.ofNat _ c.toNat → Char.ofNat u.val ≠ c := by
      intro c hc hu heq
      apply hu
      rw [← heq, hval, Fin.ofNat_val_eq_self]
    refine ⟨?_, ?_⟩
    · rw [List.singleton_append, scanUnits, if_neg (hne '\\' (by decide) h5C), if_neg (by omega),
        unitsOf_ofNat hlead htrail]
    · rw [List.singleton_append, List.head?_cons, ne_eq, Option.some.injEq]
      exact hne '"' (by decide) h22

theorem length_quoteUnit (u : CodeUnit) : 0 < (quoteUnit u).length := by
  unfold quoteUnit
  split_ifs <;> exact Nat.succ_pos _

theorem scanString_quoteUnits (s : Utf16) (rest : List Char) :
    ∀ n, (quoteUnits s).length < n →
      scanString n (quoteUnits s ++ '"' :: rest) = some (s, rest) := by
  have hnext : ∀ {n cs s} (us : Utf16), scanUnits cs = some (us, quoteUnits s ++ '"' :: rest) →
      cs.head? ≠ some '"' → scanString n (quoteUnits s ++ '"' :: rest) = some (s, rest) →
      scanString (n + 1) cs = some (us ++ s, rest) := by
    intro n cs s us hunits hhead hrest
    rw [scanString, if_neg hhead, hunits]
    show (scanString n _).bind _ = _
    rw [hrest]
    rfl
  induction s using quoteUnits.induct with
  | case1 =>
      intro n hn
      obtain ⟨n, rfl⟩ := Nat.exists_eq_add_one.mpr hn
      rfl
  | case2 u =>
      intro n hn
      obtain ⟨n, rfl⟩ := Nat.exists_eq_add_one.mpr (Nat.zero_lt_of_lt hn)
      obtain ⟨hunits, hhead⟩ := scanUnits_quoteUnit u ('"' :: rest)
      have hpos := length_quoteUnit u
      obtain ⟨n, rfl⟩ := Nat.exists_eq_add_one.mpr (show 0 < n by rw [quoteUnits] at hn; omega)
      exact hnext (s := []) _ hunits hhead rfl
  | case3 u v us h ih =>
      intro n hn
      obtain ⟨n, rfl⟩ := Nat.exists_eq_add_one.mpr (Nat.zero_lt_of_lt hn)
      have hnat : (pairChar u v).toNat = 0x10000 + (u.val - 0xD800) * 0x400 + (v.val - 0xDC00) :=
        toNat_ofNat (by
          have hlead := h.1
          have htrail := h.2
          unfold leading at hlead
          unfold trailing at htrail
          omega)
      have hne : ∀ c : Char, c.toNat < 65536 → pairChar u v ≠ c := by
        rintro c hc rfl
        omega
      rw [quoteUnits, if_pos h, List.cons_append]
      refine hnext [u, v] ?_ ?_ (ih n ?_)
      · rw [scanUnits, if_neg (hne '\\' (by decide)), if_neg (by omega), unitsOf_pairChar h.1 h.2]
      · rw [List.head?_cons, ne_eq, Option.some.injEq]
        exact hne '"' (by decide)
      · rw [quoteUnits, if_pos h, List.length_cons] at hn
        omega
  | case4 u v us h ih =>
      intro n hn
      obtain ⟨n, rfl⟩ := Nat.exists_eq_add_one.mpr (Nat.zero_lt_of_lt hn)
      rw [quoteUnits, if_neg h, List.append_assoc]
      obtain ⟨hunits, hhead⟩ := scanUnits_quoteUnit u (quoteUnits (v :: us) ++ '"' :: rest)
      have hpos := length_quoteUnit u
      rw [quoteUnits, if_neg h, List.length_append] at hn
      exact hnext _ hunits hhead (ih n (by omega))

end Js
