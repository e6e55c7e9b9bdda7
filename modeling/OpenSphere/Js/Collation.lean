import OpenSphere.Sql.Text

/-!
# The order of `localeCompare`

`localeCompare` compares two texts as the locale does.  What is known of it is that it is a
linear preorder of all texts, and that it tells two texts of lower-case letters, digits and a
few signs apart where they differ.
-/

open Sql

namespace Js

/-- Lower-case letters, digits, hyphens, dots and slashes. -/
def Plain (t : String) : Prop :=
  ∀ c ∈ chars t, orOneOf (fun c => lower c || digit c) ['-', '.', '/'] c = true

/-- `s.localeCompare(t)`. -/
structure Collation where
  compare : String → String → Int
  swap : ∀ s t, compare s t < 0 ↔ 0 < compare t s
  trans : ∀ s t u, compare s t ≤ 0 → compare t u ≤ 0 → compare s u ≤ 0
  plain : ∀ s t, Plain s → Plain t → compare s t = 0 → s = t

namespace Collation

variable (collation : Collation) {s t u : String}

theorem refl (s : String) : collation.compare s s = 0 := by
  have hswap := collation.swap s s
  omega

theorem total (s t : String) : collation.compare s t ≤ 0 ∨ collation.compare t s ≤ 0 := by
  have hswap := collation.swap t s
  omega

theorem eq_of_le (hs : Plain s) (ht : Plain t) (hst : collation.compare s t ≤ 0)
    (hts : collation.compare t s ≤ 0) : s = t := by
  have hswap := collation.swap s t
  have hswap' := collation.swap t s
  exact collation.plain s t hs ht (by omega)

theorem lt_of_lt_of_le (h : collation.compare s t < 0) (h' : collation.compare t u ≤ 0) :
    collation.compare s u < 0 := by
  by_contra hge
  have hus : collation.compare u s ≤ 0 := by
    have hswap := collation.swap s u
    have hswap' := collation.swap u s
    omega
  have hts := collation.trans t u s h' hus
  have hswap := collation.swap s t
  omega

end Collation

end Js
