import CodeAudit.Proofs.Number.Arithmetic

/-!
# Numbers that stay numbers

Arithmetic on finite numbers can overflow, but it takes two infinities to get what is no number.  So
**a finite number added to a number, or less one, is a number** (`add_finite`, `finite_sub`), and a
number is brought between zero and one by `clampUnit` (`inUnit_clampUnit`).  Nothing here asks how
large a number is.
-/

namespace CodeAudit.Number

open Float.Model UnpackedFloat

/-- Between zero and one. -/
def InUnit (x : Float) : Prop := 0.0 ≤ x ∧ x ≤ 1.0

/-! ## 1. Numbers -/

/-- A number has a sign: what is at most itself is on one side of zero. -/
theorem le_self_iff {x : Float} : x ≤ x ↔ ∃ s, HasSign s (parts x) := by
  have hsign : Nonempty Sign := ⟨.positive⟩
  rw [le_iff_rank]
  rcases parts x with (_ | _) | _ | (_ | _) | ⟨_ | _, m, e, _⟩ <;> simp [rank?, HasSign]

theorem isFinite_iff {x : Float} : x.isFinite = true ↔ (parts x).isFinite = true := Iff.rfl

theorem exists_hasSign_of_isFinite {x : UnpackedFloat} (h : x.isFinite = true) :
    ∃ s, HasSign s x := by
  cases x with
  | notANumber => cases h
  | infinity s => cases h
  | zero s => exact ⟨s, trivial⟩
  | finite s m e hm => exact ⟨s, rfl⟩

theorem le_self_of_isFinite {x : Float} (h : x.isFinite = true) : x ≤ x :=
  le_self_iff.mpr (exists_hasSign_of_isFinite (isFinite_iff.mp h))

/-! ## 2. Sums and differences -/

theorem exists_hasSign_normalize (m e : ℤ) :
    ∃ s, HasSign s (UnpackedFloat.normalize .binary64 m e .positive) := by
  rcases lt_or_ge m 0 with hneg | hpos
  · refine ⟨.negative, ?_⟩
    rw [UnpackedFloat.normalize, compare_lt_iff_lt.mpr hneg]
    exact hasSign_round .negative (by omega) e
  · exact ⟨.positive, hasSign_normalize hpos e⟩

theorem exists_hasSign_add : ∀ {x y : UnpackedFloat} {s : Sign}, HasSign s x → y.isFinite = true →
    ∃ s, HasSign s (UnpackedFloat.add .binary64 x y)
  | .infinity s, .zero _, _, _, _ => ⟨s, rfl⟩
  | .infinity s, .finite .., _, _, _ => ⟨s, rfl⟩
  | .zero s, .zero s', _, _, _ => ⟨.positive, by cases s <;> cases s' <;> trivial⟩
  | .zero _, .finite s .., _, _, _ => ⟨s, rfl⟩
  | .finite s .., .zero _, _, _, _ => ⟨s, rfl⟩
  | .finite .., .finite .., _, _, _ => exists_hasSign_normalize _ _

theorem exists_hasSign_sub : ∀ {x y : UnpackedFloat} {s : Sign}, x.isFinite = true → HasSign s y →
    ∃ s, HasSign s (UnpackedFloat.sub .binary64 x y)
  | .zero _, .infinity s, _, _, _ => ⟨-s, rfl⟩
  | .finite .., .infinity s, _, _, _ => ⟨-s, rfl⟩
  | .zero s, .zero s', _, _, _ => ⟨.positive, by cases s <;> cases s' <;> trivial⟩
  | .zero _, .finite s .., _, _, _ => ⟨-s, rfl⟩
  | .finite s .., .zero _, _, _, _ => ⟨s, rfl⟩
  | .finite .., .finite .., _, _, _ => exists_hasSign_normalize _ _

/-- **A finite number added to a number gives a number.** -/
theorem add_finite {a b : Float} (ha : a ≤ a) (hb : b.isFinite = true) : a + b ≤ a + b := by
  obtain ⟨s, hs⟩ := le_self_iff.mp ha
  obtain ⟨s', hs'⟩ := exists_hasSign_add hs (isFinite_iff.mp hb)
  exact le_self_iff.mpr ⟨s', hs'.unpack_pack⟩

/-- **A finite number less a number is a number.** -/
theorem finite_sub {a b : Float} (ha : a.isFinite = true) (hb : b ≤ b) : a - b ≤ a - b := by
  obtain ⟨s, hs⟩ := le_self_iff.mp hb
  obtain ⟨s', hs'⟩ := exists_hasSign_sub (isFinite_iff.mp ha) hs
  exact le_self_iff.mpr ⟨s', hs'.unpack_pack⟩

/-! ## 3. The unit interval -/

theorem inUnit_zero : InUnit 0.0 := ⟨le_iff_parts.mpr rfl, le_iff_parts.mpr rfl⟩

theorem inUnit_half : InUnit 0.5 := ⟨le_iff_parts.mpr rfl, le_iff_parts.mpr rfl⟩

theorem inUnit_one : InUnit 1.0 := ⟨le_iff_parts.mpr rfl, le_iff_parts.mpr rfl⟩

/-- **A number is brought between zero and one.** -/
theorem inUnit_clampUnit {x : Float} (hx : x ≤ x) : InUnit (clampUnit x) := by
  unfold clampUnit
  split_ifs with hneg hbig
  · exact inUnit_zero
  · exact inUnit_one
  · have hzero : (0.0 : Float) ≤ 0.0 := inUnit_zero.1
    have hone : (1.0 : Float) ≤ 1.0 := inUnit_one.2
    exact ⟨(lt_or_le hx hzero).resolve_left hneg, (lt_or_le hone hx).resolve_left hbig⟩

end CodeAudit.Number
