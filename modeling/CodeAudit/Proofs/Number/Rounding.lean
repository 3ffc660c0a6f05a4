import CodeAudit.Proofs.Number.Finite

/-!
# Rounding

A finite number stands for an exact value, a whole number times a power of two, and arithmetic goes
through these values: the exact result is rounded to the nearest number of the format, a half to the
even one.  Here are the exact values (`value`), rounding as a function on them (`rounded`), and the
proof that the model of floating-point numbers rounds by this function (`rounds_normalize`),
although it only ever looks at the mantissa and at two bits of what was shifted out of it (`Stands`).

What is gained is the order.  **Numbers are ordered as their exact values are** (`le_iff_value`),
and **rounding keeps the order** (`rounded_mono`): two values that are rounded at the same exponent
are rounded alike, and between two that are not there is a power of two, which both respect.
-/

namespace CodeAudit.Number

open Float.Model UnpackedFloat

/-! ## 1. Exact values -/

/-- The exact value of a finite number; of anything else it is zero. -/
def value : UnpackedFloat → ℚ
  | .finite s m e _ => s.apply m * 2 ^ e
  | _ => 0

/-- A finite number with the exponent that belongs to its mantissa. -/
def IsCanonical : UnpackedFloat → Prop
  | .zero _ => True
  | .finite _ m e _ => m < 2 ^ 53 ∧ -1074 ≤ e ∧ (2 ^ 52 ≤ m ∨ e = -1074)
  | _ => False

/-- What is canonical is zero or has a mantissa. -/
theorem IsCanonical.cases {x : UnpackedFloat} (hx : IsCanonical x) :
    (∃ s, x = .zero s) ∨ ∃ s m e hm, x = .finite s m e hm := by
  cases x with
  | infinity s => exact hx.elim
  | notANumber => exact hx.elim
  | zero s => exact .inl ⟨s, rfl⟩
  | finite s m e hm => exact .inr ⟨s, m, e, hm, rfl⟩

theorem toNat_implicit (m : BitVec 52) : (1#1 ++ m).toNat = 2 ^ 52 + m.toNat := by
  rw [BitVec.toNat_append, ← Nat.shiftLeft_add_eq_or_of_lt m.isLt]
  rfl

/-- What is stored is canonical. -/
theorem isCanonical_parts {x : Float} (h : x.isFinite = true) : IsCanonical (parts x) := by
  have hfinite := isFinite_iff.mp h
  revert hfinite
  simp only [parts, Float.Model.unpack, UnpackedFloat.unpack]
  have hm : (@unpackMantissa .binary64 x.toModel.toBits.toBitVec).toNat < 2 ^ 52 := BitVec.isLt _
  generalize @unpackExponent .binary64 x.toModel.toBits.toBitVec = e
  split_ifs with hall hinf hzero hnone
  · intro hfinite
    cases hfinite
  · intro hfinite
    cases hfinite
  · intro _
    trivial
  · intro _
    subst hzero
    exact ⟨Nat.lt_trans hm (by decide), by decide, .inr (by decide)⟩
  · intro _
    have hpos : e.toNat ≠ 0 := fun heq => hzero (BitVec.eq_of_toNat_eq heq)
    have hbias : Format.binary64.exponentBias = 1023 := rfl
    simp only [IsCanonical, toNat_implicit, hbias]
    exact ⟨by omega, by omega, .inl (by omega)⟩

/-- Of two positive numbers the one with the larger exponent is the larger one. -/
theorem scaled_lt_scaled {m m' : ℕ} {e e' : ℤ} (hm : m < 2 ^ 53) (hm' : 2 ^ 52 ≤ m') (h : e < e') :
    (m : ℚ) * 2 ^ e < m' * 2 ^ e' := by
  calc (m : ℚ) * 2 ^ e < 2 ^ 53 * 2 ^ e := by
        have : (m : ℚ) < 2 ^ 53 := by exact_mod_cast hm
        gcongr
    _ = 2 ^ 52 * 2 ^ (e + 1) := by
        rw [zpow_add_one₀ two_ne_zero]
        ring
    _ ≤ m' * 2 ^ e' := by
        have hle : (2 : ℚ) ^ 52 ≤ m' := by exact_mod_cast hm'
        have hpow : (2 : ℚ) ^ (e + 1) ≤ 2 ^ e' := zpow_le_zpow_right₀ one_le_two h
        gcongr

/-- Positive numbers are ordered by exponent and then by mantissa. -/
theorem scaled_lt_of_lex {m m' : ℕ} {e e' : ℤ} (hm : m < 2 ^ 53) (he : -1074 ≤ e)
    (hm' : 2 ^ 52 ≤ m' ∨ e' = -1074) (h : e < e' ∨ e = e' ∧ (m : ℤ) < m') :
    (m : ℚ) * 2 ^ e < m' * 2 ^ e' := by
  rcases h with hless | ⟨rfl, hless⟩
  · exact scaled_lt_scaled hm (hm'.resolve_right (by omega)) hless
  · have hcast : (m : ℚ) < m' := by exact_mod_cast hless
    gcongr

/-- A larger number has a larger exact value. -/
theorem value_lt_of_rank_lt {x y : UnpackedFloat} {a b : ℤ ×ₗ ℤ ×ₗ ℤ} (hx : IsCanonical x)
    (hy : IsCanonical y) (ha : rank? x = some a) (hb : rank? y = some b) (h : a < b) :
    value x < value y := by
  have hpos {m : ℕ} {e : ℤ} (hm : 0 < m) : (0 : ℚ) < m * 2 ^ e := by positivity
  obtain ⟨s, rfl⟩ | ⟨_ | _, m, e, hm, rfl⟩ := hx.cases <;>
    obtain ⟨s', rfl⟩ | ⟨_ | _, m', e', hm', rfl⟩ := hy.cases
  all_goals
    obtain rfl := Option.some.inj ha
    obtain rfl := Option.some.inj hb
    simp only [Prod.Lex.toLex_lt_toLex] at h
    simp only [value, Sign.apply, Int.cast_neg, Int.cast_natCast, neg_mul]
  · omega
  · omega
  · exact hpos hm'
  · exact neg_neg_of_pos (hpos hm)
  · exact neg_lt_neg (scaled_lt_of_lex hy.1 hy.2.1 hx.2.2 (by omega))
  · exact (neg_neg_of_pos (hpos hm)).trans (hpos hm')
  · omega
  · omega
  · exact scaled_lt_of_lex hx.1 hx.2.1 hy.2.2 (by omega)

theorem exists_rank_of_isCanonical {x : UnpackedFloat} (hx : IsCanonical x) :
    ∃ a, rank? x = some a := by
  obtain ⟨s, rfl⟩ | ⟨_ | _, m, e, hm, rfl⟩ := hx.cases <;> exact ⟨_, rfl⟩

theorem value_eq_of_rank_eq {x y : UnpackedFloat} (hx : IsCanonical x) (hy : IsCanonical y)
    (h : rank? x = rank? y) : value x = value y := by
  obtain ⟨s, rfl⟩ | ⟨_ | _, m, e, hm, rfl⟩ := hx.cases <;>
    obtain ⟨s', rfl⟩ | ⟨_ | _, m', e', hm', rfl⟩ := hy.cases <;> simp_all [rank?, value]

theorem rank_le_iff_value {x y : UnpackedFloat} {a b : ℤ ×ₗ ℤ ×ₗ ℤ} (hx : IsCanonical x)
    (hy : IsCanonical y) (ha : rank? x = some a) (hb : rank? y = some b) :
    a ≤ b ↔ value x ≤ value y := by
  constructor
  · intro h
    rcases h.lt_or_eq with hlt | rfl
    · exact (value_lt_of_rank_lt hx hy ha hb hlt).le
    · exact (value_eq_of_rank_eq hx hy (ha.trans hb.symm)).le
  · intro h
    by_contra hlt
    exact h.not_gt (value_lt_of_rank_lt hy hx hb ha (not_le.mp hlt))

/-- **Numbers are ordered as their exact values are.** -/
theorem le_iff_value {x y : UnpackedFloat} (hx : IsCanonical x) (hy : IsCanonical y) :
    x.le y = true ↔ value x ≤ value y := by
  obtain ⟨a, ha⟩ := exists_rank_of_isCanonical hx
  obtain ⟨b, hb⟩ := exists_rank_of_isCanonical hy
  rw [← rank_le_iff_value hx hy ha hb, UnpackedFloat.le, compare_eq_rank, ha, hb]
  simp [← compare_le_iff_le, Ordering.isLE_iff_ne_gt]

theorem lt_iff_value {x y : UnpackedFloat} (hx : IsCanonical x) (hy : IsCanonical y) :
    x.lt y = true ↔ value x < value y := by
  obtain ⟨a, ha⟩ := exists_rank_of_isCanonical hx
  obtain ⟨b, hb⟩ := exists_rank_of_isCanonical hy
  rw [← not_le, ← rank_le_iff_value hy hx hb ha, not_le, UnpackedFloat.lt, compare_eq_rank, ha, hb]
  simp [← compare_lt_iff_lt]

/-! ## 2. Rounding -/

/-- The nearest whole number, a half going to the even neighbour. -/
def nearestEven (x : ℚ) : ℤ :=
  if Int.fract x < 1 / 2 then ⌊x⌋ else if 1 / 2 < Int.fract x then ⌊x⌋ + 1 else ⌊x⌋ + ⌊x⌋ % 2

theorem nearestEven_intCast (n : ℤ) : nearestEven n = n := by
  simp [nearestEven]

theorem nearestEven_bounds (x : ℚ) : ⌊x⌋ ≤ nearestEven x ∧ nearestEven x ≤ ⌊x⌋ + 1 := by
  unfold nearestEven
  split_ifs <;> omega

theorem nearestEven_mono {x y : ℚ} (h : x ≤ y) : nearestEven x ≤ nearestEven y := by
  rcases (Int.floor_le_floor h).lt_or_eq with hlt | heq
  · have hx := (nearestEven_bounds x).2
    have hy := (nearestEven_bounds y).1
    omega
  · have hfract : Int.fract x ≤ Int.fract y := by
      rw [Int.fract, Int.fract, heq]
      exact sub_le_sub_right h _
    unfold nearestEven
    rw [heq]
    split_ifs <;> first | omega | linarith

theorem nearestEven_neg (x : ℚ) : nearestEven (-x) = -nearestEven x := by
  rcases eq_or_ne (Int.fract x) 0 with hzero | hne
  · obtain ⟨n, rfl⟩ := Int.fract_eq_zero_iff.mp hzero
    rw [← Int.cast_neg, nearestEven_intCast, nearestEven_intCast]
  · have hfloor : ⌊-x⌋ = -⌊x⌋ - 1 := by
      rw [Int.floor_eq_iff]
      have hpos := (Int.fract_nonneg x).lt_of_ne' hne
      have hless := Int.fract_lt_one x
      rw [Int.fract] at hpos hless
      push_cast
      constructor <;> linarith
    unfold nearestEven
    rw [Int.fract_neg hne, hfloor]
    split_ifs <;> first | omega | linarith

/-- The exponent at which a value is rounded. -/
def grain (x : ℚ) : ℤ := max (Int.log 2 |x| - 52) (-1074)

/-- A value rounded to 53 binary places, or to the least exponent. -/
def rounded (x : ℚ) : ℚ := nearestEven (x / 2 ^ grain x) * 2 ^ grain x

theorem rounded_neg (x : ℚ) : rounded (-x) = -rounded x := by
  simp only [rounded, grain, abs_neg, neg_div, nearestEven_neg, Int.cast_neg, neg_mul]

theorem rounded_zero : rounded 0 = 0 := by
  simp [rounded, nearestEven]

/-- A multiple of the grain that bounds a value from above bounds it when it is rounded. -/
theorem rounded_le_of_le {x : ℚ} {n : ℤ} (h : x ≤ n * 2 ^ grain x) :
    rounded x ≤ n * 2 ^ grain x := by
  have hint := nearestEven_mono ((div_le_iff₀ (by positivity)).mpr h)
  rw [nearestEven_intCast] at hint
  rw [rounded]
  gcongr

theorem le_rounded_of_le {x : ℚ} {n : ℤ} (h : n * 2 ^ grain x ≤ x) :
    n * 2 ^ grain x ≤ rounded x := by
  have hint := nearestEven_mono ((le_div_iff₀ (by positivity)).mpr h)
  rw [nearestEven_intCast] at hint
  rw [rounded]
  gcongr

theorem rounded_nonneg {x : ℚ} (h : 0 ≤ x) : 0 ≤ rounded x := by
  simpa using @le_rounded_of_le x 0 (by simpa using h)

theorem two_zpow_add (k : ℕ) (g : ℤ) : (2 : ℚ) ^ (k + g) = ((2 ^ k : ℤ) : ℚ) * 2 ^ g := by
  rw [zpow_add₀ two_ne_zero, zpow_natCast]
  push_cast
  rfl

/-- A positive value is at most the power of two above it, also when it is rounded. -/
theorem rounded_le_pow {x : ℚ} (h : 0 < x) : rounded x ≤ 2 ^ (53 + grain x) := by
  have hlt : x < 2 ^ (53 + grain x) := by
    rw [← Nat.cast_ofNat, Int.lt_zpow_iff_log_lt one_lt_two h, grain, abs_of_pos h]
    omega
  have hpow : (2 : ℚ) ^ (53 + grain x) = ((2 ^ 53 : ℤ) : ℚ) * 2 ^ grain x := two_zpow_add 53 _
  rw [hpow] at hlt ⊢
  exact rounded_le_of_le hlt.le

/-- A value that has all its places is at least the power of two below it, also when it is
rounded. -/
theorem pow_le_rounded {x : ℚ} (h : 0 < x) (hgrain : -1074 < grain x) :
    2 ^ (52 + grain x) ≤ rounded x := by
  have hle : 2 ^ (52 + grain x) ≤ x := by
    rw [← Nat.cast_ofNat, Int.zpow_le_iff_le_log one_lt_two h]
    rw [grain, abs_of_pos h] at *
    omega
  have hpow : (2 : ℚ) ^ (52 + grain x) = ((2 ^ 52 : ℤ) : ℚ) * 2 ^ grain x := two_zpow_add 52 _
  rw [hpow] at hle ⊢
  exact le_rounded_of_le hle

theorem rounded_mono_of_pos {x y : ℚ} (hx : 0 < x) (h : x ≤ y) : rounded x ≤ rounded y := by
  have hgrain : grain x ≤ grain y := by
    have hlog := @Int.log_mono_right ℚ _ _ _ _ 2 x y hx h
    rw [grain, grain, abs_of_pos hx, abs_of_pos (hx.trans_le h)]
    omega
  rcases hgrain.lt_or_eq with hlt | heq
  -- there is a power of two between the two
  · have hleast : -1074 ≤ grain x := le_max_right _ _
    calc rounded x ≤ 2 ^ (53 + grain x) := rounded_le_pow hx
      _ ≤ 2 ^ (52 + grain y) := zpow_le_zpow_right₀ one_le_two (by omega)
      _ ≤ rounded y := pow_le_rounded (hx.trans_le h) (by omega)
  · rw [rounded, rounded, heq]
    have hscale : (0 : ℚ) ≤ 2 ^ grain y := by positivity
    have hint := nearestEven_mono (div_le_div_of_nonneg_right h hscale)
    gcongr

/-- **Rounding keeps the order.** -/
theorem rounded_mono {x y : ℚ} (h : x ≤ y) : rounded x ≤ rounded y := by
  rcases lt_or_ge 0 x with hx | hx
  · exact rounded_mono_of_pos hx h
  · rcases lt_or_ge y 0 with hy | hy
    · have hneg := rounded_mono_of_pos (neg_pos.mpr hy) (neg_le_neg h)
      rw [rounded_neg, rounded_neg] at hneg
      exact neg_le_neg_iff.mp hneg
    · have hneg := rounded_nonneg (neg_nonneg.mpr hx)
      rw [rounded_neg] at hneg
      exact (neg_nonneg.mp hneg).trans (rounded_nonneg hy)

/-! ## 3. The bits that are shifted out -/

/-- The value of a mantissa and its round bit. -/
def lowEnd (em : ExtendedMantissa) : ℚ := em.mantissa + if em.roundBit then 1 / 2 else 0

/-- The values that a mantissa and its two bits for rounding stand for: the sticky bit says whether
there is more. -/
def Stands (x : ℚ) (em : ExtendedMantissa) : Prop :=
  if em.stickyBit then lowEnd em < x ∧ x < lowEnd em + 1 / 2 else x = lowEnd em

theorem lowEnd_shiftRightOne (em : ExtendedMantissa) :
    lowEnd em.shiftRightOne = (em.mantissa : ℚ) / 2 := by
  have hcast : ((em.mantissa % 2 : ℕ) : ℚ) + 2 * ((em.mantissa / 2 : ℕ) : ℚ) = em.mantissa := by
    exact_mod_cast Nat.mod_add_div em.mantissa 2
  rcases Nat.mod_two_eq_zero_or_one em.mantissa with hm | hm <;> rw [hm] at hcast <;>
    simp only [lowEnd, ExtendedMantissa.shiftRightOne, hm, Nat.cast_zero, Nat.cast_one] at hcast ⊢
  · rw [if_neg (by decide)]
    linarith
  · rw [if_pos (by decide)]
    linarith

theorem Stands.shiftRightOne {x : ℚ} {em : ExtendedMantissa} (h : Stands x em) :
    Stands (x / 2) em.shiftRightOne := by
  rw [Stands, lowEnd_shiftRightOne]
  rcases em with ⟨m, _ | _, _ | _⟩ <;>
    simp only [Stands, lowEnd, ExtendedMantissa.shiftRightOne, Bool.or_false, Bool.or_true,
      Bool.false_eq_true, if_true, if_false] at h ⊢
  · rw [h, add_zero]
  all_goals constructor <;> linarith

theorem Stands.shiftRight {x : ℚ} {em : ExtendedMantissa} (h : Stands x em) (n : ℕ) :
    Stands (x / 2 ^ n) (em >>> n) := by
  induction n with
  | zero =>
    rw [pow_zero, div_one]
    exact h
  | succ n ih =>
    rw [pow_succ, ← div_div]
    exact ih.shiftRightOne

/-- The two bits are all that is needed to round. -/
theorem Stands.roundedMantissa {x : ℚ} {em : ExtendedMantissa} (h : Stands x em) :
    (em.roundedMantissa : ℤ) = nearestEven x := by
  rcases em with ⟨m, _ | _, _ | _⟩ <;>
    simp only [Stands, lowEnd, ExtendedMantissa.roundedMantissa, ExtendedMantissa.accuracy,
      Accuracy.roundToNearestEven, Bool.false_eq_true, if_true, if_false, add_zero] at h ⊢
  all_goals
    have hfloor : ⌊x⌋ = (m : ℤ) := by
      rw [Int.floor_eq_iff, Int.cast_natCast]
      constructor <;> linarith
    rw [nearestEven, Int.fract, hfloor, Int.cast_natCast]
  · rw [if_pos (by linarith)]
  · rw [if_pos (by linarith)]
  · rw [if_neg (by linarith), if_neg (by linarith)]
    rfl
  · rw [if_neg (by linarith), if_pos (by linarith)]
    rfl

/-! ## 4. Rounding in the model -/

theorem log_scaled {m : ℕ} (hm : m ≠ 0) (e : ℤ) : Int.log 2 ((m : ℚ) * 2 ^ e) = m.log2 + e := by
  have hpos : (0 : ℚ) < m := by positivity
  have hlog : Int.log 2 (m : ℚ) = m.log2 := by rw [Int.log_natCast, Nat.log2_eq_log_two]
  refine eq_of_forall_le_iff fun k => ?_
  calc k ≤ Int.log 2 ((m : ℚ) * 2 ^ e)
      ↔ (2 : ℚ) ^ k ≤ m * 2 ^ e := (Int.zpow_le_iff_le_log one_lt_two (by positivity)).symm
    _ ↔ (2 : ℚ) ^ (k - e) ≤ m := by rw [zpow_sub₀ two_ne_zero, div_le_iff₀ (by positivity)]
    _ ↔ k - e ≤ m.log2 := by rw [← hlog]; exact Int.zpow_le_iff_le_log one_lt_two hpos
    _ ↔ k ≤ m.log2 + e := sub_le_iff_le_add

theorem grain_scaled {m : ℕ} (hm : m ≠ 0) (e : ℤ) :
    grain ((m : ℚ) * 2 ^ e) = max (m.log2 + e - 52) (-1074) := by
  rw [grain, abs_of_nonneg (by positivity), log_scaled hm]

/-- The number that is a value rounded. -/
def Rounds (x : ℚ) (y : UnpackedFloat) : Prop := IsCanonical y ∧ value y = rounded x

theorem apply_scaled (s : Sign) (n : ℕ) (e : ℤ) :
    (s.apply n : ℚ) * 2 ^ e = s.apply 1 * (n * 2 ^ e) := by
  cases s <;> simp [Sign.apply]

theorem rounded_apply (s : Sign) (x : ℚ) : rounded (s.apply 1 * x) = s.apply 1 * rounded x := by
  cases s <;> simp [Sign.apply, rounded_neg]

/-- What the shift to the exponent of a mantissa leaves to be rounded. -/
theorem roundedMantissa_shiftToTargetExponent {m : ℕ} (hm : m ≠ 0) {e : ℤ}
    (he : e ≤ max (m.log2 + e - 52) (-1074)) :
    ((shiftToTargetExponent .binary64 m e .exact).1.roundedMantissa : ℚ) *
      2 ^ (shiftToTargetExponent .binary64 m e .exact).2 = rounded (m * 2 ^ e) ∧
    (shiftToTargetExponent .binary64 m e .exact).2 = grain ((m : ℚ) * 2 ^ e) := by
  have hexp : (shiftToTargetExponent .binary64 m e .exact).2 = grain ((m : ℚ) * 2 ^ e) := by
    rw [(shiftToTargetExponent_exact m e).2, grain_scaled hm, max_eq_right he]
  refine ⟨?_, hexp⟩
  have hstands : Stands m ⟨m, false, false⟩ := by simp [Stands, lowEnd]
  have hround := (hstands.shiftRight (grain ((m : ℚ) * 2 ^ e) - e).toNat).roundedMantissa
  have hscale : (m : ℚ) / 2 ^ (grain ((m : ℚ) * 2 ^ e) - e).toNat =
      m * 2 ^ e / 2 ^ grain ((m : ℚ) * 2 ^ e) := by
    rw [← zpow_natCast, Int.toNat_of_nonneg (by rw [grain_scaled hm]; omega), zpow_sub₀ two_ne_zero]
    field_simp
  rw [hexp, rounded, ← hscale, ← hround, grain_scaled hm, ← targetExponent_eq]
  rfl

/-- A mantissa of at most 53 places at an exponent of its own; one that overflows gives the next
power of two. -/
theorem rounds_of_mantissa {s : Sign} {x : ℚ} {n : ℕ} {t : ℤ} (hn : n ≤ 2 ^ 53) (ht : -1074 ≤ t)
    (hnormal : 2 ^ 52 ≤ n ∨ t = -1074) (hvalue : rounded x = s.apply n * 2 ^ t) :
    Rounds x (if h : (shiftToTargetExponent .binary64 n t .exact).1.mantissa = 0 then .zero s
      else .finite s _ (shiftToTargetExponent .binary64 n t .exact).2 (Nat.pos_of_ne_zero h)) := by
  rcases hn.lt_or_eq with hlt | rfl
  · simp only [shiftToTargetExponent_of_fits hlt ht]
    split_ifs with hzero
    · refine ⟨trivial, ?_⟩
      rw [hvalue, hzero]
      cases s <;> simp [value, Sign.apply]
    · exact ⟨⟨hlt, ht, hnormal⟩, hvalue.symm⟩
  · simp only [shiftToTargetExponent_of_overflows ht]
    rw [dif_neg (by decide)]
    refine ⟨⟨by decide, by omega, .inl (le_refl _)⟩, ?_⟩
    rw [hvalue, value, apply_scaled, apply_scaled, zpow_add_one₀ two_ne_zero]
    push_cast
    ring

theorem rounds_roundWithAccuracy (s : Sign) {m : ℕ} (hm : m ≠ 0) {e : ℤ}
    (he : e ≤ max (m.log2 + e - 52) (-1074)) :
    Rounds (s.apply m * 2 ^ e) (roundWithAccuracy .binary64 s m e .exact) := by
  obtain ⟨hvalue, hexp⟩ := roundedMantissa_shiftToTargetExponent hm he
  have hfit := (shiftToTargetExponent_exact m e).1
  have hleast : -1074 ≤ (shiftToTargetExponent .binary64 m e .exact).2 := by
    rw [hexp]
    exact le_max_right _ _
  refine rounds_of_mantissa ((roundedMantissa_le _).trans hfit) hleast ?_ ?_
  · rcases hleast.lt_or_eq with hless | heq
    · refine .inl ?_
      have hpow := pow_le_rounded (by positivity : (0 : ℚ) < m * 2 ^ e) (hexp ▸ hless)
      rw [← hvalue, ← hexp, zpow_add₀ two_ne_zero] at hpow
      have hle := le_of_mul_le_mul_right hpow (by positivity)
      exact_mod_cast hle
    · exact .inr heq.symm
  · rw [apply_scaled, rounded_apply, ← hvalue, ← apply_scaled]
    rfl

theorem rounds_round (s : Sign) {m : ℕ} (hm : m ≠ 0) (e : ℤ) :
    Rounds (s.apply m * 2 ^ e) (UnpackedFloat.round .binary64 s m e) := by
  rw [UnpackedFloat.round, decreaseExponent, targetExponent_eq]
  generalize hn : (e - max ((m.log2 : ℤ) + e - 52) (-1074)).toNat = n
  have hne : m <<< n ≠ 0 := mt Nat.shiftLeft_eq_zero_iff.mp hm
  have hround := @rounds_roundWithAccuracy s _ hne (e - n) (by rw [log2_shiftLeft hm]; omega)
  have hvalue : ((s.apply (m <<< n : ℕ) : ℤ) : ℚ) * 2 ^ (e - n) = s.apply m * 2 ^ e := by
    rw [apply_scaled, apply_scaled, Nat.shiftLeft_eq, zpow_sub₀ two_ne_zero, zpow_natCast]
    push_cast
    field_simp
  rwa [hvalue] at hround

/-- **The model rounds to the nearest number.** -/
theorem rounds_normalize (m e : ℤ) :
    Rounds (m * 2 ^ e) (UnpackedFloat.normalize .binary64 m e .positive) := by
  rw [UnpackedFloat.normalize]
  rcases lt_trichotomy m 0 with hneg | rfl | hpos
  · rw [compare_lt_iff_lt.mpr hneg]
    have hround := @rounds_round .negative (-m).toNat (by omega) e
    rwa [Sign.apply, Int.toNat_of_nonneg (by omega), neg_neg] at hround
  · refine ⟨trivial, ?_⟩
    rw [Int.cast_zero, zero_mul, rounded_zero]
    rfl
  · rw [compare_gt_iff_gt.mpr hpos]
    have hround := @rounds_round .positive m.toNat (by omega) e
    rwa [Sign.apply, Int.toNat_of_nonneg hpos.le] at hround

end CodeAudit.Number
