import Mathlib.Data.List.Induction
import OpenSphere.Sql.Text

/-!
# Decimal digits

`Nat.toDigits` writes a number without leading zeros, and what is written so comes back
(`toDigits_ofDigitChars`).
-/

namespace Sql

theorem digit_of_isDigit {c : Char} (h : c.isDigit = true) : digit c = true := by
  simp only [Char.isDigit, Bool.and_eq_true, decide_eq_true_eq] at h
  simp only [digit, Bool.and_eq_true, decide_eq_true_eq]
  exact h

theorem digit_toDigits {n : Nat} : ∀ c ∈ Nat.toDigits 10 n, digit c = true :=
  fun _ hc => digit_of_isDigit (Nat.isDigit_of_mem_toDigits (by omega) (by omega) hc)

theorem digit_ne {c d : Char} (h : digit c = true) (hd : digit d = false) : c ≠ d := by
  rintro rfl
  rw [h] at hd
  cases hd

theorem digit_value {c : Char} (h : digit c = true) : ∃ d < 10, c = Nat.digitChar d ∧
    c.toNat - '0'.toNat = d := by
  simp only [digit, Bool.and_eq_true, decide_eq_true_eq, Char.le_def, UInt32.le_iff_toNat_le] at h
  have hlo : 48 ≤ c.toNat := h.1
  have hhi : c.toNat ≤ 57 := h.2
  have hdigits : ∀ d < 10, (Nat.digitChar d).toNat = d + 48 := by decide
  have hd : c.toNat - 48 < 10 := by omega
  refine ⟨c.toNat - 48, hd, Char.toNat_inj.mp ?_, rfl⟩
  rw [hdigits _ hd]
  omega

/-- Digits without a leading 0 are the canonical text of the number that they are. -/
theorem toDigits_ofDigitChars {c : Char} {cs : List Char} (hc : digit c = true) (hne : c ≠ '0')
    (hcs : ∀ d ∈ cs, digit d = true) :
    0 < Nat.ofDigitChars 10 (c :: cs) 0 ∧
      Nat.toDigits 10 (Nat.ofDigitChars 10 (c :: cs) 0) = c :: cs := by
  induction cs using List.reverseRecOn with
  | nil =>
      obtain ⟨d, hd, rfl, hvalue⟩ := digit_value hc
      have hpositive : 0 < d := by
        rcases Nat.eq_zero_or_pos d with rfl | hpos
        · exact absurd rfl hne
        · exact hpos
      rw [Nat.ofDigitChars_cons, hvalue, Nat.ofDigitChars_nil, Nat.mul_zero, Nat.zero_add]
      exact ⟨hpositive, Nat.toDigits_of_lt_base hd⟩
  | append_singleton cs e ih =>
      obtain ⟨hpositive, hdigits⟩ := ih fun d hd => hcs d (List.mem_append_left _ hd)
      obtain ⟨d, hd, rfl, hvalue⟩ := digit_value (hcs e (by simp))
      rw [← List.cons_append, Nat.ofDigitChars_append, Nat.ofDigitChars_cons, hvalue,
        Nat.ofDigitChars_nil]
      refine ⟨by omega, ?_⟩
      rw [← Nat.toDigits_append_toDigits (by omega) hpositive hd, hdigits,
        Nat.toDigits_of_lt_base hd]

/-- The canonical text of a number other than 0 does not begin with 0. -/
theorem toDigits_head {n : Nat} (hn : 0 < n) {c : Char} (cs : List Char)
    (h : Nat.toDigits 10 n = c :: cs) : c ≠ '0' := by
  induction n using Nat.strongRecOn generalizing cs with
  | ind n ih =>
      by_cases hsmall : n < 10
      · rw [Nat.toDigits_of_lt_base hsmall, List.cons.injEq] at h
        have hnonzero : ∀ d < 10, 0 < d → Nat.digitChar d ≠ '0' := by decide
        exact h.1 ▸ hnonzero n hsmall hn
      · obtain ⟨d, ds, hds⟩ := List.exists_cons_of_ne_nil
          (Nat.toDigits_ne_nil (n := n / 10) (b := 10))
        rw [Nat.toDigits_of_base_le (by omega) (by omega), hds, List.cons_append,
          List.cons.injEq] at h
        obtain ⟨rfl, -⟩ := h
        exact ih (n / 10) (by omega) (by omega) ds hds

end Sql
