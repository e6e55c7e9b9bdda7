import Mathlib.Algebra.Order.Round
import Mathlib.Data.Int.Log
import Mathlib.Data.Rat.Floor
import Mathlib.Tactic.Linarith
import Mathlib.Tactic.Positivity
import Mathlib.Tactic.Ring

/-!
# Double-precision numbers

The finite numbers of 64 bits are rational numbers of 53 significant bits.  The two zeros are
one number here, as they are for `===`.

Rounding takes every rational number to the nearest of 53 bits, and leaves these as they are
(`rounded_of_representable`).
-/

namespace Js

/-- A number of 53 bits, however large. -/
def Representable (x : ℚ) : Prop := ∃ m e : ℤ, |m| ≤ 2 ^ 53 ∧ -1074 ≤ e ∧ x = m * 2 ^ e

def exponent (x : ℚ) : ℤ := max (Int.log 2 |x| - 52) (-1074)

def nearest (x : ℚ) : ℤ :=
  if Int.fract x < 1 / 2 then ⌊x⌋
  else if 1 / 2 < Int.fract x then ⌊x⌋ + 1
  else if ⌊x⌋ % 2 = 0 then ⌊x⌋ else ⌊x⌋ + 1

def rounded (x : ℚ) : ℚ := nearest (x / 2 ^ exponent x) * 2 ^ exponent x

@[ext] structure Double where
  value : ℚ
  representable : Representable value
  bounded : |value| < 2 ^ 1024

instance : DecidableEq Double := fun x y => decidable_of_iff (x.value = y.value) Double.ext_iff.symm

/-! ## Rounding -/

theorem nearest_intCast (n : ℤ) : nearest n = n := by
  have hfract : Int.fract (n : ℚ) < 1 / 2 := by
    rw [Int.fract_intCast]
    norm_num
  rw [nearest, if_pos hfract, Int.floor_intCast]

theorem nearest_bounds (x : ℚ) : nearest x = ⌊x⌋ ∨ nearest x = ⌊x⌋ + 1 ∧ x ≠ ⌊x⌋ := by
  unfold nearest
  by_cases hlow : Int.fract x < 1 / 2
  · exact .inl (if_pos hlow)
  · have hne : x ≠ ⌊x⌋ := by
      intro heq
      rw [heq, Int.fract_intCast] at hlow
      norm_num at hlow
    rw [if_neg hlow]
    split_ifs
    · exact .inr ⟨rfl, hne⟩
    · exact .inl rfl
    · exact .inr ⟨rfl, hne⟩

/-- The nearest integer of a number between two integers is between them. -/
theorem nearest_le {x : ℚ} {n : ℤ} (h : x ≤ n) : nearest x ≤ n := by
  rcases nearest_bounds x with heq | ⟨heq, hne⟩
  · rw [heq]
    exact Int.floor_le_iff.mpr (by linarith)
  · rw [heq, Int.add_one_le_iff, Int.floor_lt]
    refine lt_of_le_of_ne h fun heq' => hne ?_
    rw [heq', Int.floor_intCast]

theorem le_nearest {x : ℚ} {n : ℤ} (h : (n : ℚ) ≤ x) : n ≤ nearest x := by
  have hfloor : n ≤ ⌊x⌋ := Int.le_floor.mpr h
  rcases nearest_bounds x with heq | ⟨heq, -⟩ <;> omega

theorem abs_lt_exponent (x : ℚ) : |x| < 2 ^ (53 + exponent x) := by
  have hlog := Int.lt_zpow_succ_log_self (b := 2) (by norm_num) |x|
  refine lt_of_lt_of_le hlog ?_
  rw [Nat.cast_ofNat]
  refine zpow_le_zpow_right₀ (by norm_num) ?_
  have hmax := le_max_left (Int.log 2 |x| - 52) (-1074)
  unfold exponent
  omega

theorem two_zpow_pos (e : ℤ) : (0 : ℚ) < 2 ^ e := zpow_pos two_pos e

theorem rounded_representable (x : ℚ) : Representable (rounded x) := by
  have hpos := two_zpow_pos (exponent x)
  have hscaled : |x / 2 ^ exponent x| < 2 ^ (53 : ℤ) := by
    rw [abs_div, abs_of_pos hpos, div_lt_iff₀ hpos, ← zpow_add₀ (by norm_num)]
    exact abs_lt_exponent x
  obtain ⟨hlow, hhigh⟩ := abs_lt.mp hscaled
  refine ⟨nearest (x / 2 ^ exponent x), exponent x, abs_le.mpr ⟨le_nearest ?_, nearest_le ?_⟩,
    le_max_right .., rfl⟩
  · push_cast
    exact hlow.le
  · push_cast
    exact hhigh.le

theorem abs_scaled_pos {m : ℤ} (hne : m ≠ 0) (e : ℤ) : 0 < |(m : ℚ) * 2 ^ e| :=
  abs_pos.mpr (mul_ne_zero (Int.cast_ne_zero.mpr hne) (two_zpow_pos e).ne')

theorem exponent_le {m e : ℤ} (hm : |m| ≤ 2 ^ 53) (hne : m ≠ 0) (he : -1074 ≤ e) :
    exponent (m * 2 ^ e) ≤ e + 1 := by
  refine max_le ?_ (by omega)
  have hpos := abs_scaled_pos hne e
  have hlog : Int.log 2 |(m : ℚ) * 2 ^ e| < 54 + e := by
    rw [← Int.lt_zpow_iff_log_lt (by norm_num) hpos, Nat.cast_ofNat, abs_mul,
      abs_of_pos (two_zpow_pos e), zpow_add₀ (by norm_num)]
    refine mul_lt_mul_of_pos_right ?_ (two_zpow_pos e)
    have hm' : |(m : ℚ)| ≤ 2 ^ 53 := by exact_mod_cast hm
    refine lt_of_le_of_lt hm' ?_
    norm_num
  omega

/-- A number above 53 bits of a place is its multiple, but for the largest. -/
theorem eq_of_exponent {m e : ℤ} (hm : |m| ≤ 2 ^ 53) (hne : m ≠ 0)
    (h : exponent (m * 2 ^ e) = e + 1) (he : -1074 ≤ e) : |m| = 2 ^ 53 := by
  have hlog : Int.log 2 |(m : ℚ) * 2 ^ e| = 53 + e := by
    unfold exponent at h
    omega
  have hself := Int.zpow_log_le_self (b := 2) (by norm_num) (abs_scaled_pos hne e)
  rw [hlog, Nat.cast_ofNat, zpow_add₀ (by norm_num), abs_mul, abs_of_pos (two_zpow_pos e)] at hself
  have hle := le_of_mul_le_mul_right hself (two_zpow_pos e)
  refine le_antisymm hm ?_
  exact_mod_cast hle

/-- A number of 53 bits is a multiple of its last place. -/
theorem exists_scaled {x : ℚ} (h : Representable x) : ∃ n : ℤ, x / 2 ^ exponent x = n := by
  obtain ⟨m, e, hm, he, rfl⟩ := h
  by_cases hne : m = 0
  · exact ⟨0, by simp [hne]⟩
  · have hle := exponent_le hm hne he
    rcases hle.eq_or_lt with heq | hlt
    · have habs := eq_of_exponent hm hne heq he
      rw [heq, mul_div_assoc, ← zpow_sub₀ (by norm_num)]
      rw [show e - (e + 1) = -1 by omega, zpow_neg_one]
      rcases abs_eq (by norm_num : (0 : ℤ) ≤ 2 ^ 53) |>.mp habs with rfl | rfl
      · exact ⟨2 ^ 52, by norm_num⟩
      · exact ⟨-2 ^ 52, by norm_num⟩
    · refine ⟨m * 2 ^ (e - exponent (m * 2 ^ e)).toNat, ?_⟩
      rw [mul_div_assoc, ← zpow_sub₀ (by norm_num), Int.cast_mul, Int.cast_pow, Int.cast_ofNat,
        ← zpow_natCast, Int.toNat_of_nonneg (by omega)]

theorem rounded_of_representable {x : ℚ} (h : Representable x) : rounded x = x := by
  obtain ⟨n, hn⟩ := exists_scaled h
  rw [rounded, hn, nearest_intCast, ← hn, div_mul_cancel₀ _ (two_zpow_pos _).ne']

theorem Representable.neg {x : ℚ} (h : Representable x) : Representable (-x) := by
  obtain ⟨m, e, hm, he, rfl⟩ := h
  exact ⟨-m, e, by rwa [abs_neg], he, by rw [Int.cast_neg, neg_mul]⟩

theorem representable_abs {x : ℚ} (h : Representable x) : Representable |x| := by
  rcases abs_choice x with heq | heq
  · rwa [heq]
  · rw [heq]
    exact h.neg

def Double.ofInt (n : ℤ) (h : |n| ≤ 2 ^ 53) : Double where
  value := n
  representable := ⟨n, 0, h, by norm_num, by simp⟩
  bounded := by
    have h' : |(n : ℚ)| ≤ 2 ^ 53 := by exact_mod_cast h
    exact lt_of_le_of_lt h' (pow_lt_pow_right₀ (by norm_num) (by norm_num))

end Js
