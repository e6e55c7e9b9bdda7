import Mathlib.Algebra.GroupWithZero.Nat
import Mathlib.Algebra.Order.Group.Int

/-!
# Limiters with fixed windows

A limiter counts what arrives, and starts to count anew with the first arrival
that comes a width or more after it last did.  So time is cut into windows by the
arrivals themselves, and where the cuts lie depends on when the limiter was made.

`admits_iff` says what a limiter lets through: it never refuses exactly when
every window is within its limits.  Two limiters with the same limits that were
made at different times cut differently, and neither's windows say anything about
the other's.
-/

namespace System

/-- What a limiter admits between two cuts. -/
structure Limits where
  /-- The length of a window. -/
  width : Int
  /-- The most arrivals, and the most they may weigh. -/
  count : Nat
  weight : Nat

structure Limiter where
  started : Int
  count : Nat
  weight : Nat
deriving DecidableEq

def Limiter.new (started : Int) : Limiter := ⟨started, 0, 0⟩

def Limiter.next (l : Limits) (now : Int) (weight : Nat) (s : Limiter) : Limiter :=
  if l.width ≤ now - s.started then ⟨now, 1, weight⟩
  else ⟨s.started, s.count + 1, s.weight + weight⟩

def Limiter.within (l : Limits) (s : Limiter) : Bool :=
  decide (s.count ≤ l.count) && decide (s.weight ≤ l.weight)

/-- No arrival, of a time and a weight each, takes the limiter over its limits. -/
def Limiter.admits (l : Limits) : List (Int × Nat) → Limiter → Bool
  | [], _ => true
  | (now, weight) :: rest, s =>
      (s.next l now weight).within l && Limiter.admits l rest (s.next l now weight)

/-- The arrivals of the window that opened at a time, and those of the later windows. -/
def windows (width : Int) : Int → List (Int × Nat) → List (Int × Nat) × List (List (Int × Nat))
  | _, [] => ([], [])
  | started, (now, weight) :: rest =>
      if width ≤ now - started then
        ([], ((now, weight) :: (windows width now rest).1) :: (windows width now rest).2)
      else ((now, weight) :: (windows width started rest).1, (windows width started rest).2)

/-- A window that is within the limits, where some was counted before. -/
def Fits (l : Limits) (s : Limiter) (w : List (Int × Nat)) : Prop :=
  s.count + w.length ≤ l.count ∧ s.weight + (w.map Prod.snd).sum ≤ l.weight

/-- Every window of a limiter that was made at a time is within the limits. -/
def Spaced (l : Limits) (started : Int) (as : List (Int × Nat)) : Prop :=
  ∀ w ∈ (windows l.width started as).1 :: (windows l.width started as).2, Fits l (.new started) w

/-- A window fits no less before some of it was counted. -/
theorem fits_cons {l : Limits} {s : Limiter} {now : Int} {weight : Nat} {w : List (Int × Nat)} :
    Fits l s ((now, weight) :: w) ↔ Fits l ⟨s.started, s.count + 1, s.weight + weight⟩ w := by
  simp only [Fits, List.length_cons, List.map_cons, List.sum_cons]
  constructor
  · rintro ⟨hcount, hweight⟩
    exact ⟨by omega, by omega⟩
  · rintro ⟨hcount, hweight⟩
    exact ⟨by omega, by omega⟩

theorem Fits.within {l : Limits} {s : Limiter} {w : List (Int × Nat)} (h : Fits l s w) :
    s.within l = true := by
  rw [Limiter.within, Bool.and_eq_true, decide_eq_true_eq, decide_eq_true_eq]
  exact ⟨Nat.le_trans (Nat.le_add_right ..) h.1, Nat.le_trans (Nat.le_add_right ..) h.2⟩

/-- A limiter admits what arrives exactly when the rest of its window and every later window
are within the limits. -/
theorem admits_from_iff (l : Limits) (as : List (Int × Nat)) (s : Limiter)
    (hs : s.within l = true) :
    s.admits l as = true ↔ Fits l s (windows l.width s.started as).1 ∧
      ∀ w ∈ (windows l.width s.started as).2, Fits l (.new 0) w := by
  induction as generalizing s with
  | nil =>
      rw [Limiter.within, Bool.and_eq_true, decide_eq_true_eq, decide_eq_true_eq] at hs
      simp [Limiter.admits, windows, Fits, hs.1, hs.2]
  | cons a as ih =>
      obtain ⟨now, weight⟩ := a
      rw [Limiter.admits, Bool.and_eq_true, windows]
      by_cases hcut : l.width ≤ now - s.started
      · -- the arrival is the first of the next window
        have hnext : s.next l now weight = ⟨now, 1, weight⟩ := if_pos hcut
        rw [hnext, if_pos hcut]
        have hcons : Fits l (.new 0) ((now, weight) :: (windows l.width now as).1) ↔
            Fits l ⟨now, 1, weight⟩ (windows l.width now as).1 := by
          rw [fits_cons, Limiter.new]
          simp only [Fits, Nat.zero_add]
        constructor
        · rintro ⟨hwithin, hrest⟩
          obtain ⟨hfirst, hlater⟩ := (ih _ hwithin).mp hrest
          rw [Limiter.within, Bool.and_eq_true, decide_eq_true_eq, decide_eq_true_eq] at hs
          refine ⟨⟨by simpa using hs.1, by simpa using hs.2⟩, fun w hw => ?_⟩
          rcases List.mem_cons.mp hw with rfl | hw
          · exact hcons.mpr hfirst
          · exact hlater w hw
        · rintro ⟨-, hall⟩
          have hfirst := hcons.mp (hall _ (List.mem_cons_self ..))
          exact ⟨hfirst.within, (ih _ hfirst.within).mpr
            ⟨hfirst, fun w hw => hall w (List.mem_cons_of_mem _ hw)⟩⟩
      · have hnext : s.next l now weight = ⟨s.started, s.count + 1, s.weight + weight⟩ :=
          if_neg hcut
        rw [hnext, if_neg hcut, fits_cons]
        constructor
        · rintro ⟨hwithin, hrest⟩
          exact (ih _ hwithin).mp hrest
        · rintro ⟨hfirst, hlater⟩
          exact ⟨hfirst.within, (ih _ hfirst.within).mpr ⟨hfirst, hlater⟩⟩

/-- A new limiter never refuses exactly when every window is within its limits. -/
theorem admits_iff (l : Limits) (started : Int) (as : List (Int × Nat)) :
    (Limiter.new started).admits l as = true ↔ Spaced l started as := by
  have hnew : (Limiter.new started).within l = true := by simp [Limiter.within, Limiter.new]
  rw [admits_from_iff l as _ hnew, Spaced, List.forall_mem_cons]
  exact Iff.rfl

end System
