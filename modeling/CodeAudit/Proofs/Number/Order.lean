import CodeAudit.Finding.Basic
import Mathlib

/-!
# The order of floating-point numbers

Confidences are compared as floating-point numbers are: what is no number is not even at most
itself, and the two zeros are equal.  On everything else the comparison is that of a *rank*, the
sign first and then, among numbers of one sign, the exponent before the mantissa.  So the laws of a
linear order hold of numbers (`le_trans`, `le_of_lt`), and a number that is brought between zero and
one keeps every bound it had from above (`clampUnit_le`).
-/

namespace CodeAudit.Number

open Float.Model

/-- The sign, mantissa and exponent of a number. -/
def parts (x : Float) : UnpackedFloat := x.toModel.unpack

theorem parts_zero : parts 0.0 = .zero .positive := rfl

theorem parts_half : parts 0.5 = .finite .positive (2 ^ 52) (-53) (by decide) := rfl

theorem le_iff_parts {a b : Float} : a ≤ b ↔ (parts a).le (parts b) = true :=
  decide_eq_true_iff

theorem lt_iff_parts {a b : Float} : a < b ↔ (parts a).lt (parts b) = true :=
  decide_eq_true_iff

/-! ## 1. Ranks -/

/-- The place of a number in the order; none for what is no number. -/
def rank? : UnpackedFloat → Option (ℤ ×ₗ ℤ ×ₗ ℤ)
  | .notANumber => none
  | .infinity .negative => some (toLex (-2, toLex (0, 0)))
  | .finite .negative m e _ => some (toLex (-1, toLex (-e, -(m : ℤ))))
  | .zero _ => some (toLex (0, toLex (0, 0)))
  | .finite .positive m e _ => some (toLex (1, toLex (e, (m : ℤ))))
  | .infinity .positive => some (toLex (2, toLex (0, 0)))

theorem compare_neg (a b : ℤ) : compare (-a) (-b) = (compare a b).swap := by
  rcases lt_trichotomy a b with h | rfl | h
  · rw [compare_lt_iff_lt.mpr h, compare_gt_iff_gt.mpr (show -b < -a by omega)]
    rfl
  · rw [compare_eq_iff_eq.mpr rfl, compare_eq_iff_eq.mpr rfl]
    rfl
  · rw [compare_gt_iff_gt.mpr h, compare_lt_iff_lt.mpr (show -a < -b by omega)]
    rfl

theorem compare_cast (a b : ℕ) : compare (a : ℤ) (b : ℤ) = compare a b := by
  rcases lt_trichotomy a b with h | rfl | h
  · rw [compare_lt_iff_lt.mpr h, compare_lt_iff_lt.mpr (Int.ofNat_lt.mpr h)]
  · rw [compare_eq_iff_eq.mpr rfl, compare_eq_iff_eq.mpr rfl]
  · rw [compare_gt_iff_gt.mpr h, compare_gt_iff_gt.mpr (Int.ofNat_lt.mpr h)]

/-- **Two numbers compare as their ranks do**, and what is no number with nothing. -/
theorem compare_eq_rank (a b : UnpackedFloat) :
    a.compare b = (rank? a).bind fun x => (rank? b).map fun y => compare x y := by
  have hpair (x y p q : ℤ) :
      compare (toLex (x, p)) (toLex (y, q)) = (compare x y).then (compare p q) := rfl
  have hrank (x y : ℤ) (p q : ℤ ×ₗ ℤ) :
      compare (toLex (x, p)) (toLex (y, q)) = (compare x y).then (compare p q) := rfl
  -- each side has seven forms: the signs are split too, since the comparison looks at them
  rcases a with (_ | _) | _ | (_ | _) | ⟨_ | _, m, e, _⟩ <;>
    rcases b with (_ | _) | _ | (_ | _) | ⟨_ | _, m', e', _⟩ <;>
    simp only [UnpackedFloat.compare, rank?, Option.bind_some, Option.map_some, Option.bind_none,
      Option.map_none, hpair, hrank, compare_neg, compare_cast, Ordering.swap_then] <;> rfl

theorem le_iff_rank {a b : Float} :
    a ≤ b ↔ ∃ x y, rank? (parts a) = some x ∧ rank? (parts b) = some y ∧ x ≤ y := by
  rw [le_iff_parts, UnpackedFloat.le, compare_eq_rank]
  cases rank? (parts a) <;> cases rank? (parts b) <;>
    simp [← compare_le_iff_le, Ordering.isLE_iff_ne_gt]

theorem lt_iff_rank {a b : Float} :
    a < b ↔ ∃ x y, rank? (parts a) = some x ∧ rank? (parts b) = some y ∧ x < y := by
  rw [lt_iff_parts, UnpackedFloat.lt, compare_eq_rank]
  cases rank? (parts a) <;> cases rank? (parts b) <;> simp [compare_lt_iff_lt]

/-! ## 2. Laws -/

theorem le_of_lt {a b : Float} (h : a < b) : a ≤ b := by
  obtain ⟨x, y, hx, hy, hxy⟩ := lt_iff_rank.mp h
  exact le_iff_rank.mpr ⟨x, y, hx, hy, hxy.le⟩

theorem le_trans {a b c : Float} (hab : a ≤ b) (hbc : b ≤ c) : a ≤ c := by
  obtain ⟨x, y, hx, hy, hxy⟩ := le_iff_rank.mp hab
  obtain ⟨y', z, hy', hz, hyz⟩ := le_iff_rank.mp hbc
  obtain rfl : y = y' := Option.some.inj (hy.symm.trans hy')
  exact le_iff_rank.mpr ⟨x, z, hx, hz, hxy.trans hyz⟩

theorem lt_of_le_of_lt {a b c : Float} (hab : a ≤ b) (hbc : b < c) : a < c := by
  obtain ⟨x, y, hx, hy, hxy⟩ := le_iff_rank.mp hab
  obtain ⟨y', z, hy', hz, hyz⟩ := lt_iff_rank.mp hbc
  obtain rfl : y = y' := Option.some.inj (hy.symm.trans hy')
  exact lt_iff_rank.mpr ⟨x, z, hx, hz, hxy.trans_lt hyz⟩

theorem not_le_of_lt {a b : Float} (h : a < b) : ¬ b ≤ a := by
  intro hle
  obtain ⟨x, y, hx, hy, hxy⟩ := lt_iff_rank.mp (lt_of_le_of_lt hle h)
  obtain rfl : x = y := Option.some.inj (hx.symm.trans hy)
  exact lt_irrefl x hxy

/-- Of two numbers one is less than the other or at least as large; a number is what is at most
itself. -/
theorem lt_or_le {a b : Float} (ha : a ≤ a) (hb : b ≤ b) : a < b ∨ b ≤ a := by
  obtain ⟨x, -, hx, -, -⟩ := le_iff_rank.mp ha
  obtain ⟨y, -, hy, -, -⟩ := le_iff_rank.mp hb
  rcases lt_or_ge x y with hlt | hge
  · exact .inl (lt_iff_rank.mpr ⟨x, y, hx, hy, hlt⟩)
  · exact .inr (le_iff_rank.mpr ⟨y, x, hy, hx, hge⟩)

/-- What is at least something is a number. -/
theorem le_self_of_le {a b : Float} (h : a ≤ b) : b ≤ b := by
  obtain ⟨-, y, -, hy, -⟩ := le_iff_rank.mp h
  exact le_iff_rank.mpr ⟨y, y, hy, hy, le_refl y⟩

/-- Only what is no number is not at most itself. -/
theorem le_self_of_isNaN_eq_false {x : Float} (h : x.isNaN = false) : x ≤ x := by
  have hparts : (parts x).isNaN = false := h
  obtain ⟨y, hy⟩ : ∃ y, rank? (parts x) = some y := by
    revert hparts
    rcases parts x with (_ | _) | _ | (_ | _) | ⟨_ | _, m, e, hm⟩ <;>
      simp [rank?, UnpackedFloat.isNaN]
  exact le_iff_rank.mpr ⟨y, y, hy, hy, le_refl y⟩

/-- A bound from above that is not negative is kept when a number is brought between zero and
one. -/
theorem clampUnit_le {x a : Float} (hx : x ≤ a) (ha : 0.0 ≤ a) : clampUnit x ≤ a := by
  unfold clampUnit
  split_ifs with hneg hbig
  · exact ha
  · exact le_trans (le_of_lt hbig) hx
  · exact hx

end CodeAudit.Number
