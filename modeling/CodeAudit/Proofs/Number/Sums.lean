import CodeAudit.Proofs.Number.Rounding

/-!
# The order of sums and differences

The arithmetic of the model is exact arithmetic followed by rounding (`rounds_add`, `rounds_sub`)
and by packing, where a number that is too large becomes infinite (`unpack_pack`).  Each of the two
steps keeps the order, so **a rounded sum grows with its summands** (`add_le_add_of_isFinite`) and
**a rounded difference shrinks with what is taken off** (`sub_le_sub_of_isFinite`).

Differences have two more properties.  Numbers are spaced as finely as their differences are, so **a
difference is zero only when the two numbers are equal** (`sub_lt_zero`), however close they are;
and taking off nothing is exact (`sub_zero_eq`, `sub_negZero_eq`), except that `-0.0` becomes `0.0`
when the nothing that is taken off is `-0.0` as well.
-/

namespace CodeAudit.Number

open Float.Model UnpackedFloat

/-! ## 1. Sums and differences -/

theorem log2_le_of_lt {m : ℕ} (hm : 0 < m) (h : m < 2 ^ 53) : m.log2 ≤ 52 :=
  Nat.le_of_lt_succ ((Nat.log2_lt hm.ne').mpr h)

/-- A number of the format is not changed by rounding. -/
theorem rounded_value {x : UnpackedFloat} (hx : IsCanonical x) : rounded (value x) = value x := by
  obtain ⟨s, rfl⟩ | ⟨s, m, e, hm, rfl⟩ := hx.cases
  · exact rounded_zero
  · obtain ⟨hfit, hleast, hnormal⟩ := hx
    have hlog := log2_le_of_lt hm hfit
    have hgrain : grain ((m : ℚ) * 2 ^ e) = e := by
      rw [grain_scaled hm.ne']
      rcases hnormal with hnormal | rfl
      · have hge := (Nat.le_log2 hm.ne').mpr hnormal
        omega
      · omega
    have hmul : ((m : ℤ) : ℚ) * 2 ^ grain ((m : ℚ) * 2 ^ e) = m * 2 ^ e := by
      rw [hgrain, Int.cast_natCast]
    rw [value, apply_scaled, rounded_apply]
    congr 1
    exact le_antisymm ((rounded_le_of_le hmul.ge).trans_eq hmul)
      (hmul.symm.trans_le (le_rounded_of_le hmul.le))

theorem apply_shifted (s : Sign) (m : ℕ) {e k : ℤ} (h : k ≤ e) :
    (s.apply (m <<< (e - k).toNat : ℕ) : ℚ) * 2 ^ k = s.apply m * 2 ^ e := by
  have hpow : (2 : ℚ) ^ e = 2 ^ (e - k).toNat * 2 ^ k := by
    rw [← zpow_natCast, Int.toNat_of_nonneg (by omega), ← zpow_add₀ two_ne_zero, sub_add_cancel]
  rw [apply_scaled, apply_scaled, Nat.shiftLeft_eq, hpow]
  push_cast
  ring

/-- **A sum is the exact sum, rounded.** -/
theorem rounds_add {x y : UnpackedFloat} (hx : IsCanonical x) (hy : IsCanonical y) :
    Rounds (value x + value y) (UnpackedFloat.add .binary64 x y) := by
  have hzero (s : Sign) : value (.zero s) = 0 := rfl
  obtain ⟨s, rfl⟩ | ⟨s, m, e, hm, rfl⟩ := hx.cases
  · rw [hzero, zero_add]
    obtain ⟨s', rfl⟩ | ⟨s', m', e', hm', rfl⟩ := hy.cases
    · rw [UnpackedFloat.add]
      split_ifs <;> exact ⟨trivial, rounded_zero.symm⟩
    · exact ⟨hy, (rounded_value hy).symm⟩
  · obtain ⟨s', rfl⟩ | ⟨s', m', e', hm', rfl⟩ := hy.cases
    · rw [hzero, add_zero]
      exact ⟨hx, (rounded_value hx).symm⟩
    · have hround := rounds_normalize (s.apply (m <<< (e - min e e').toNat : ℕ) +
        s'.apply (m' <<< (e' - min e e').toNat : ℕ)) (min e e')
      rw [Int.cast_add, add_mul, apply_shifted s m (min_le_left _ _),
        apply_shifted s' m' (min_le_right _ _)] at hround
      exact hround

/-- A difference is a sum with the sign turned round, also where zeros and infinities meet. -/
theorem unpacked_sub_eq (x y : UnpackedFloat) :
    UnpackedFloat.sub .binary64 x y = UnpackedFloat.add .binary64 x y.neg := by
  have hneg (s : Sign) (n : ℤ) : (-s).apply n = -s.apply n := by
    cases s
    · exact (neg_neg n).symm
    · rfl
  cases x with
  | finite s m e hm =>
    cases y with
    | finite s' m' e' hm' =>
      simp only [UnpackedFloat.sub, UnpackedFloat.add, UnpackedFloat.neg, hneg, ← sub_eq_add_neg]
    | _ => rfl
  | _ => cases y <;> rfl

theorem isCanonical_neg {x : UnpackedFloat} (hx : IsCanonical x) :
    IsCanonical x.neg ∧ value x.neg = -value x := by
  obtain ⟨s, rfl⟩ | ⟨s, m, e, hm, rfl⟩ := hx.cases
  · exact ⟨trivial, neg_zero.symm⟩
  · refine ⟨hx, ?_⟩
    cases s <;> simp [value, UnpackedFloat.neg, Sign.apply]

/-- **A difference is the exact difference, rounded.** -/
theorem rounds_sub {x y : UnpackedFloat} (hx : IsCanonical x) (hy : IsCanonical y) :
    Rounds (value x - value y) (UnpackedFloat.sub .binary64 x y) := by
  obtain ⟨hneg, hvalue⟩ := isCanonical_neg hy
  have hround := rounds_add hx hneg
  rwa [hvalue, ← sub_eq_add_neg, ← unpacked_sub_eq] at hround

/-! ## 2. Packing -/

/-- A number as it is packed: one that is too large is infinite. -/
def saturated : UnpackedFloat → UnpackedFloat
  | .finite s m e h => if 971 < e then .infinity s else .finite s m e h
  | x => x

theorem unpack_pack_normal (s : Sign) {m : ℕ} {e : ℤ} (hm : 0 < m) (hnormal : 2 ^ 52 ≤ m)
    (hfit : m < 2 ^ 53) (hleast : -1074 ≤ e) (hmost : e ≤ 971) :
    (Float.Model.pack (.finite s m e hm)).unpack = .finite s m e hm := by
  have hbias : Format.binary64.exponentBias = 1023 := rfl
  have hlog : m.log2 + 1 = Format.binary64.mantissaBits := by
    have hge := (Nat.le_log2 hm.ne').mpr hnormal
    have hle := log2_le_of_lt hm hfit
    show m.log2 + 1 = 1 + 52
    omega
  have hexp : (BitVec.ofNat 11 (e + 1023 + 52).toNat).toNat = (e + 1023 + 52).toNat :=
    Nat.mod_eq_of_lt (by omega)
  have hall : BitVec.ofNat 11 (e + 1023 + 52).toNat ≠ -1#11 := by
    intro heq
    have hval : (e + 1023 + 52).toNat = 2047 := hexp.symm.trans (congrArg BitVec.toNat heq)
    omega
  have hzero : BitVec.ofNat 11 (e + 1023 + 52).toNat ≠ 0#11 := by
    intro heq
    have hval : (e + 1023 + 52).toNat = 0 := hexp.symm.trans (congrArg BitVec.toNat heq)
    omega
  have hmantissa : (1#1 ++ BitVec.ofNat 52 m).toNat = m := by
    rw [toNat_implicit, BitVec.toNat_ofNat]
    omega
  simp only [Float.Model.pack, Float.Model.unpack, UnpackedFloat.pack, hbias, Nat.cast_ofNat]
  rw [if_neg (by omega), if_pos hlog]
  simp only [UnpackedFloat.unpack, unpackExponent_packComponents, unpackMantissa_packComponents,
    unpackSign_packComponents, if_neg hall, if_neg hzero, hmantissa, hexp, hbias, Nat.cast_ofNat]
  congr 1
  omega

theorem unpack_pack_subnormal (s : Sign) {m : ℕ} (hm : 0 < m) (hfit : m < 2 ^ 52) :
    (Float.Model.pack (.finite s m (-1074) hm)).unpack = .finite s m (-1074) hm := by
  have hlog : m.log2 + 1 ≠ Format.binary64.mantissaBits := by
    have hlt := (Nat.log2_lt hm.ne').mpr hfit
    show m.log2 + 1 ≠ 1 + 52
    omega
  have hmantissa : (BitVec.ofNat 52 m).toNat = m := Nat.mod_eq_of_lt hfit
  have hzero : BitVec.ofNat 52 m ≠ 0#52 := by
    intro heq
    have hval : m = 0 := hmantissa.symm.trans (congrArg BitVec.toNat heq)
    omega
  simp only [Float.Model.pack, Float.Model.unpack, UnpackedFloat.pack]
  rw [if_neg (by decide), if_neg hlog]
  have hall : (0#11 : BitVec 11) ≠ -1#11 := by decide
  simp only [UnpackedFloat.unpack, unpackExponent_packComponents, unpackMantissa_packComponents,
    unpackSign_packComponents, if_neg hall, if_true, dif_neg hzero, hmantissa]
  congr 1

/-- **What is packed is read back as it was**, unless it is too large. -/
theorem unpack_pack {x : UnpackedFloat} (hx : IsCanonical x) :
    (Float.Model.pack x).unpack = saturated x := by
  obtain ⟨s, rfl⟩ | ⟨s, m, e, hm, rfl⟩ := hx.cases
  · cases s <;> rfl
  · obtain ⟨hfit, hleast, hnormal⟩ := hx
    rw [saturated]
    split_ifs with hbig
    · have hbias : Format.binary64.exponentBias = 1023 := rfl
      simp only [Float.Model.pack, Float.Model.unpack, UnpackedFloat.pack, hbias]
      rw [if_pos (by omega)]
      cases s <;> rfl
    · rcases Nat.lt_or_ge m (2 ^ 52) with hsmall | hlarge
      · obtain rfl := hnormal.resolve_left (by omega)
        exact unpack_pack_subnormal s hm hsmall
      · exact unpack_pack_normal s hm hlarge hfit hleast (by omega)

/-- The least value that is too large. -/
def limit : ℚ := 2 ^ (1024 : ℤ)

theorem scaled_lt_limit_iff {m : ℕ} {e : ℤ} (hfit : m < 2 ^ 53)
    (hnormal : 2 ^ 52 ≤ m ∨ e = -1074) :
    (m : ℚ) * 2 ^ e < limit ↔ e ≤ 971 := by
  have hlimit : limit = (2 ^ 52 : ℕ) * 2 ^ (972 : ℤ) := by
    rw [limit, Nat.cast_pow, Nat.cast_ofNat, ← zpow_natCast, ← zpow_add₀ two_ne_zero]
    rfl
  rw [hlimit]
  constructor
  · intro hlt
    by_contra hbig
    have hge : ((2 ^ 52 : ℕ) : ℚ) ≤ m := by exact_mod_cast hnormal.resolve_right (by omega)
    have hpow : (2 : ℚ) ^ (972 : ℤ) ≤ 2 ^ e := zpow_le_zpow_right₀ one_le_two (by omega)
    exact hlt.not_ge (mul_le_mul hge hpow (zpow_nonneg zero_le_two _) (Nat.cast_nonneg m))
  · intro hle
    exact scaled_lt_scaled hfit (le_refl _) (by omega)

/-- What is packed is infinite from the limit on, and the number itself below it. -/
theorem saturated_cases {x : UnpackedFloat} (hx : IsCanonical x) :
    (value x ≤ -limit ∧ saturated x = .infinity .negative) ∨
    (limit ≤ value x ∧ saturated x = .infinity .positive) ∨
    (-limit < value x ∧ value x < limit ∧ saturated x = x) := by
  have hlimit : 0 < limit := by rw [limit]; positivity
  obtain ⟨s, rfl⟩ | ⟨s, m, e, hm, rfl⟩ := hx.cases
  · exact .inr (.inr ⟨neg_neg_of_pos hlimit, hlimit, rfl⟩)
  · have hpos : (0 : ℚ) < m * 2 ^ e := by positivity
    have hiff := scaled_lt_limit_iff hx.1 hx.2.2
    rw [value, apply_scaled, saturated]
    split_ifs with hbig
    · have hge : limit ≤ (m : ℚ) * 2 ^ e := not_lt.mp (mt hiff.mp (by omega))
      cases s
      · exact .inl ⟨by simpa [Sign.apply] using hge, rfl⟩
      · exact .inr (.inl ⟨by simpa [Sign.apply] using hge, rfl⟩)
    · have hlt := hiff.mpr (by omega)
      refine .inr (.inr ?_)
      cases s <;> simp only [Sign.apply, Int.cast_neg, Int.cast_one, one_mul, neg_one_mul]
      · exact ⟨neg_lt_neg hlt, by linarith, trivial⟩
      · exact ⟨by linarith, hlt, trivial⟩

theorem le_infinity {x : UnpackedFloat} (hx : IsCanonical x) :
    x.le (.infinity .positive) = true ∧ (UnpackedFloat.infinity .negative).le x = true := by
  obtain ⟨s, rfl⟩ | ⟨s, m, e, hm, rfl⟩ := hx.cases
  · exact ⟨rfl, rfl⟩
  · cases s <;> exact ⟨rfl, rfl⟩

theorem saturated_le_saturated {x y : UnpackedFloat} (hx : IsCanonical x) (hy : IsCanonical y)
    (h : value x ≤ value y) : (saturated x).le (saturated y) = true := by
  have hlimit : 0 < limit := by rw [limit]; positivity
  rcases saturated_cases hx with ⟨hx', heq⟩ | ⟨hx', heq⟩ | ⟨hx', hx'', heq⟩ <;>
    rcases saturated_cases hy with ⟨hy', heq'⟩ | ⟨hy', heq'⟩ | ⟨hy', hy'', heq'⟩ <;>
    rw [heq, heq']
  · rfl
  · rfl
  · exact (le_infinity hy).2
  · linarith
  · rfl
  · linarith
  · linarith
  · exact (le_infinity hx).1
  · exact (le_iff_value hx hy).mpr h

/-! ## 3. The order of sums and differences -/

theorem value_le_value {a b : Float} (ha : a.isFinite = true) (hb : b.isFinite = true)
    (h : a ≤ b) : value (parts a) ≤ value (parts b) :=
  (le_iff_value (isCanonical_parts ha) (isCanonical_parts hb)).mp (le_iff_parts.mp h)

/-- Numbers that are rounded and packed keep the order of the exact values. -/
theorem Rounds.le {x y : ℚ} {u v : UnpackedFloat} (hu : Rounds x u) (hv : Rounds y v) (h : x ≤ y) :
    (Float.Model.pack u).unpack.le (Float.Model.pack v).unpack = true := by
  rw [unpack_pack hu.1, unpack_pack hv.1]
  refine saturated_le_saturated hu.1 hv.1 ?_
  rw [hu.2, hv.2]
  exact rounded_mono h

/-- **A sum is not less for a larger summand**, although it is rounded. -/
theorem add_le_add_of_isFinite {a b a' b' : Float} (ha : a.isFinite = true) (hb : b.isFinite = true)
    (ha' : a'.isFinite = true) (hb' : b'.isFinite = true) (h : a ≤ a') (h' : b ≤ b') :
    a + b ≤ a' + b' := by
  have hsum := rounds_add (isCanonical_parts ha) (isCanonical_parts hb)
  have hsum' := rounds_add (isCanonical_parts ha') (isCanonical_parts hb')
  have hle := add_le_add (value_le_value ha ha' h) (value_le_value hb hb' h')
  exact le_iff_parts.mpr (hsum.le hsum' hle)

/-- **What is left is not more when more is taken off.** -/
theorem sub_le_sub_of_isFinite {a b b' : Float} (ha : a.isFinite = true) (hb : b.isFinite = true)
    (hb' : b'.isFinite = true) (h : b ≤ b') : a - b' ≤ a - b := by
  have hdiff := rounds_sub (isCanonical_parts ha) (isCanonical_parts hb)
  have hdiff' := rounds_sub (isCanonical_parts ha) (isCanonical_parts hb')
  have hle := sub_le_sub_left (value_le_value hb hb' h) (value (parts a))
  exact le_iff_parts.mpr (hdiff'.le hdiff hle)

/-! ## 4. Differences that are zero -/

/-- A value is a multiple of the least positive one. -/
theorem exists_value_eq {x : UnpackedFloat} (hx : IsCanonical x) :
    ∃ k : ℤ, value x = k * 2 ^ (-1074 : ℤ) := by
  obtain ⟨s, rfl⟩ | ⟨s, m, e, hm, rfl⟩ := hx.cases
  · exact ⟨0, by rw [Int.cast_zero, zero_mul]; rfl⟩
  · exact ⟨_, (apply_shifted s m hx.2.1).symm⟩

/-- What is not below the least positive number is not rounded to zero. -/
theorem rounded_pos {x : ℚ} (h : 2 ^ (-1074 : ℤ) ≤ x) : 0 < rounded x := by
  have hpos : 0 < x := lt_of_lt_of_le (by positivity) h
  have hleast : -1074 ≤ grain x := le_max_right _ _
  rcases hleast.lt_or_eq with hless | heq
  · exact lt_of_lt_of_le (by positivity) (pow_le_rounded hpos hless)
  · have hle := @le_rounded_of_le x 1 (by rwa [Int.cast_one, one_mul, ← heq])
    exact lt_of_lt_of_le (by positivity) hle

/-- The difference of two values that are not the same is not rounded to zero. -/
theorem rounded_sub_pos {x y : UnpackedFloat} (hx : IsCanonical x) (hy : IsCanonical y)
    (h : value x < value y) : 0 < rounded (value y - value x) := by
  obtain ⟨k, hk⟩ := exists_value_eq hx
  obtain ⟨l, hl⟩ := exists_value_eq hy
  have hscale : (0 : ℚ) < 2 ^ (-1074 : ℤ) := by positivity
  have hless : k < l := by
    rw [hk, hl] at h
    exact_mod_cast lt_of_mul_lt_mul_right h hscale.le
  have hone : (1 : ℚ) ≤ l - k := by
    have hcast : (k : ℚ) + 1 ≤ l := by exact_mod_cast hless
    linarith
  refine rounded_pos ?_
  rw [hk, hl, ← sub_mul]
  exact le_mul_of_one_le_left hscale.le hone

theorem saturated_lt_zero {x : UnpackedFloat} (hx : IsCanonical x) (h : value x < 0) :
    (saturated x).lt (.zero .positive) = true := by
  have hlimit : 0 < limit := by rw [limit]; positivity
  rcases saturated_cases hx with ⟨-, heq⟩ | ⟨hle, -⟩ | ⟨-, -, heq⟩
  · rw [heq]
    rfl
  · linarith
  · rw [heq]
    exact (@lt_iff_value _ (.zero .positive) hx trivial).mpr h

theorem zero_lt_saturated {x : UnpackedFloat} (hx : IsCanonical x) (h : 0 < value x) :
    (UnpackedFloat.zero .positive).lt (saturated x) = true := by
  have hlimit : 0 < limit := by rw [limit]; positivity
  rcases saturated_cases hx with ⟨hle, -⟩ | ⟨-, heq⟩ | ⟨-, -, heq⟩
  · linarith
  · rw [heq]
    rfl
  · rw [heq]
    exact (@lt_iff_value (.zero .positive) _ trivial hx).mpr h

/-- **A difference has the sign of the exact one**, however close the two numbers are. -/
theorem sub_lt_zero {a b : Float} (ha : a.isFinite = true) (hb : b.isFinite = true) (h : a < b) :
    a - b < 0.0 ∧ 0.0 < b - a := by
  have hca := isCanonical_parts ha
  have hcb := isCanonical_parts hb
  have hpos := rounded_sub_pos hca hcb ((lt_iff_value hca hcb).mp (lt_iff_parts.mp h))
  have hround := rounds_sub hca hcb
  have hround' := rounds_sub hcb hca
  constructor
  · have hparts : parts (a - b) = saturated (UnpackedFloat.sub .binary64 (parts a) (parts b)) :=
      unpack_pack hround.1
    rw [lt_iff_parts, hparts, parts_zero]
    refine saturated_lt_zero hround.1 ?_
    rw [hround.2, ← neg_sub, rounded_neg]
    exact neg_neg_of_pos hpos
  · have hparts : parts (b - a) = saturated (UnpackedFloat.sub .binary64 (parts b) (parts a)) :=
      unpack_pack hround'.1
    rw [lt_iff_parts, hparts, parts_zero]
    refine zero_lt_saturated hround'.1 ?_
    rw [hround'.2]
    exact hpos

/-- A number is determined by its parts. -/
theorem parts_injective {a b : Float} (h : parts a = parts b) : a = b :=
  Float.toBits_inj.mp <| UInt64.toBitVec_inj.mp <|
    (unpack_inj_of_valid a.toModel.valid b.toModel.valid).mp h

/-- Two numbers of which neither is less are the same, unless both are zeros. -/
theorem eq_of_le_of_le {a b : Float} (hpos : 0.0 < a) (h : a ≤ b) (h' : b ≤ a) : a = b := by
  obtain ⟨x, y, hx, hy, hxy⟩ := le_iff_rank.mp h
  obtain ⟨y', x', hy', hx', hyx⟩ := le_iff_rank.mp h'
  obtain rfl := Option.some.inj (hx.symm.trans hx')
  obtain rfl := Option.some.inj (hy.symm.trans hy')
  obtain rfl := le_antisymm hxy hyx
  have hbeq : (parts a).beq (parts b) = true := by
    rw [UnpackedFloat.beq, compare_eq_rank, hx, hy]
    simp
  rw [lt_iff_parts, parts_zero] at hpos
  rcases ((beq_iff_ne_notANumber_and_eq _ _).mp hbeq).2.2 with heq | ⟨hzero, -⟩ | ⟨hzero, -⟩
  · exact parts_injective heq
  · rw [hzero] at hpos
    cases hpos
  · rw [hzero] at hpos
    cases hpos

/-- A finite number less itself is zero, and not negative zero. -/
theorem sub_self_eq {a : Float} (ha : a.isFinite = true) : a - a = 0.0 := by
  have hsub : UnpackedFloat.sub .binary64 (parts a) (parts a) = .zero .positive := by
    obtain ⟨_ | _, heq⟩ | ⟨s, m, e, hm, heq⟩ := (isCanonical_parts ha).cases <;> rw [heq]
    · rfl
    · rfl
    · simp only [UnpackedFloat.sub, sub_self]
      rfl
  have hparts : parts (a - a) =
      (Float.Model.pack (UnpackedFloat.sub .binary64 (parts a) (parts a))).unpack := rfl
  refine parts_injective ?_
  rw [hparts, hsub]
  rfl

/-- Taking off what leaves the parts of a number as they are leaves the number. -/
theorem sub_eq_self {a b : Float} (h : UnpackedFloat.sub .binary64 (parts a) (parts b) = parts a) :
    a - b = a := by
  have hpack : UnpackedFloat.pack .binary64 (parts a) = a.toBits.toBitVec :=
    pack_unpack_of_valid a.toModel.valid
  rw [← h] at hpack
  exact Float.toBits_inj.mp (UInt64.toBitVec_inj.mp hpack)

theorem sub_zero_eq (a : Float) : a - 0.0 = a := by
  refine sub_eq_self ?_
  rw [parts_zero]
  rcases parts a with _ | _ | (_ | _) | _ <;> rfl

theorem parts_negZero : parts (-0.0) = .zero .negative := rfl

theorem sub_negZero_eq {a : Float} (h : a ≠ -0.0) : a - (-0.0) = a := by
  refine sub_eq_self ?_
  have hparts : parts a ≠ .zero .negative := fun heq => h (parts_injective heq)
  rw [parts_negZero]
  rcases ha : parts a with _ | _ | (_ | _) | _
  · rfl
  · rfl
  · exact absurd ha hparts
  · rfl
  · rfl

/-- A number on both sides of zero is one of the two zeros. -/
theorem eq_zero_or_eq_negZero {a : Float} (h : 0.0 ≤ a) (h' : a ≤ 0.0) : a = 0.0 ∨ a = -0.0 := by
  have hpos := nonneg_iff.mp h
  have hneg := nonpos_iff.mp h'
  rcases ha : parts a with s | _ | (_ | _) | ⟨s, m, e, hm⟩ <;> rw [ha] at hpos hneg
  · cases hpos.symm.trans hneg
  · exact hpos.elim
  · exact .inr (parts_injective ha)
  · exact .inl (parts_injective ha)
  · cases hpos.symm.trans hneg

/-! ## 5. The unit interval -/

instance : DecidablePred InUnit := fun _ => inferInstanceAs (Decidable (_ ∧ _))

/-- What lies between zero and a finite number is finite. -/
theorem isFinite_of_nonneg_of_le {a b : Float} (ha : 0.0 ≤ a) (h : a ≤ b) (hb : b.isFinite = true) :
    a.isFinite = true := by
  have hpos := nonneg_iff.mp ha
  have hle := le_iff_parts.mp h
  rw [isFinite_iff]
  revert hpos hle
  rcases parts a with s | _ | s | ⟨s, m, e, hm⟩ <;> intro hpos hle
  · obtain rfl : s = .positive := hpos
    obtain ⟨s', heq⟩ | ⟨_ | _, m, e, hm, heq⟩ := (isCanonical_parts hb).cases <;>
      rw [heq] at hle <;> cases hle
  · exact hpos.elim
  · rfl
  · rfl

theorem isFinite_of_inUnit {a : Float} (h : InUnit a) : a.isFinite = true :=
  isFinite_of_nonneg_of_le h.1 h.2 rfl

theorem clampUnit_eq_self {a : Float} (h : InUnit a) : clampUnit a = a := by
  rw [clampUnit, if_neg fun hneg => not_le_of_lt hneg h.1, if_neg fun hbig => not_le_of_lt hbig h.2]

theorem le_self_of_ge {a b : Float} (h : a ≤ b) : a ≤ a := by
  obtain ⟨x, -, hx, -, -⟩ := le_iff_rank.mp h
  exact le_iff_rank.mpr ⟨x, x, hx, hx, le_refl x⟩

/-- Bringing numbers between zero and one keeps their order. -/
theorem clampUnit_mono {a b : Float} (h : a ≤ b) : clampUnit a ≤ clampUnit b := by
  have hb := le_self_of_le h
  rcases lt_or_le hb inUnit_zero.1 with hneg | hpos
  · rw [clampUnit, if_pos (lt_of_le_of_lt h hneg), clampUnit, if_pos hneg]
    exact inUnit_zero.1
  · rcases lt_or_le inUnit_one.2 hb with hbig | hsmall
    · have hone : clampUnit b = 1.0 := by
        rw [clampUnit, if_neg fun hneg => not_le_of_lt hneg hpos, if_pos hbig]
      rw [hone]
      exact (inUnit_clampUnit (le_self_of_ge h)).2
    · rw [clampUnit_eq_self ⟨hpos, hsmall⟩]
      exact clampUnit_le h hpos

/-- What is not finite is not changed by taking off something finite. -/
theorem sub_eq_self_of_not_isFinite {x a : Float} (hx : x.isFinite = false)
    (ha : a.isFinite = true) : x - a = x := by
  refine sub_eq_self ?_
  have hparts : (parts x).isFinite = false := hx
  revert hparts
  rcases parts x with s | _ | s | ⟨s, m, e, hm⟩ <;> intro hparts
  · obtain ⟨s', heq⟩ | ⟨s', m, e, hm, heq⟩ := (isCanonical_parts ha).cases <;> rw [heq] <;> rfl
  · rfl
  · cases hparts
  · cases hparts

/-- **What is left of any confidence is not more when more is taken off.** -/
theorem not_clampUnit_sub_lt {x a b : Float} (ha : a.isFinite = true) (hb : b.isFinite = true)
    (h : a ≤ b) : ¬ clampUnit (x - a) < clampUnit (x - b) := by
  intro hlt
  cases hx : x.isFinite with
  | true =>
    have hle := clampUnit_mono (sub_le_sub_of_isFinite hx ha hb h)
    exact not_le_of_lt hlt hle
  | false =>
    rw [sub_eq_self_of_not_isFinite hx ha, sub_eq_self_of_not_isFinite hx hb] at hlt
    exact not_le_of_lt hlt (le_of_lt hlt)

/-- What is left when something is taken off is nothing where it was not more than that, and
something where it was. -/
theorem clampUnit_sub {a p : Float} (ha : InUnit a) (hp : InUnit p) (hpos : 0.0 < p) :
    (a ≤ p → clampUnit (a - p) = 0.0) ∧ (p < a → 0.0 < clampUnit (a - p)) := by
  have hfa := isFinite_of_inUnit ha
  have hfp := isFinite_of_inUnit hp
  constructor
  · intro hle
    rcases lt_or_le (le_self_of_isFinite hfa) (le_self_of_isFinite hfp) with hlt | hge
    · exact if_pos (sub_lt_zero hfa hfp hlt).1
    · obtain rfl := eq_of_le_of_le hpos hge hle
      rw [sub_self_eq hfp]
      rfl
  · intro hlt
    have hdiff := (sub_lt_zero hfp hfa hlt).2
    unfold clampUnit
    split_ifs with hneg hbig
    · exact absurd (le_of_lt hneg) (not_le_of_lt hdiff)
    · exact lt_iff_parts.mpr rfl
    · exact hdiff

end CodeAudit.Number
