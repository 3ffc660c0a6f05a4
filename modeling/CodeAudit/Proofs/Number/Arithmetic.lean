import CodeAudit.Proofs.Number.Order

/-!
# Sums and differences of confidences

What the confidence of a finding can become is a matter of rounded arithmetic: a penalty is a sum of
numbers between zero and one, and is taken off a confidence.  Rounding and packing keep the sign
(`hasSign_round`, `HasSign.unpack_pack`), and a positive number below a half is rounded to a half at
most, since a mantissa that overflows gives the next power of two and no more (`round_le_half`).  So
a penalty is not negative, taking it off a half gives at most a half, and taking it off zero gives
at most zero.
-/

namespace CodeAudit.Number

open Float.Model UnpackedFloat

/-! ## 1. Packing -/

theorem unpackSign_packComponents {spec : Format} {s : Sign} {e : BitVec spec.exponentBits}
    {m : BitVec spec.mantissaBitsWithoutImplicit} :
    Sign.ofBitVec (unpackSign (packComponents spec s e m)) = s := by
  have hbit : unpackSign (packComponents spec s e m) = s.toBitVec := by
    ext i hi
    obtain rfl : i = 0 := by omega
    simp [unpackSign, packComponents, BitVec.getLsbD_append, BitVec.getLsbD_eq_getElem,
      BitVec.getElem_append]
  rw [hbit]
  cases s <;> rfl

/-- The bits of a finite number give back its sign, and the exponent they hold at most. -/
theorem unpack_packComponents (s : Sign) (e : BitVec 11) (m : BitVec 52) (he : e ≠ -1#11) :
    UnpackedFloat.unpack .binary64 (packComponents .binary64 s e m) = .zero s ∨
    ∃ m' e' h, UnpackedFloat.unpack .binary64 (packComponents .binary64 s e m) =
      .finite s m' e' h ∧ e' ≤ max ((e.toNat : ℤ) - 1075) (-1074) := by
  simp only [UnpackedFloat.unpack, unpackExponent_packComponents, unpackMantissa_packComponents,
    unpackSign_packComponents, if_neg he]
  split_ifs with hzero hm
  · exact .inl rfl
  · have hpos : 0 < m.toNat := Nat.pos_of_ne_zero fun h => hm (BitVec.eq_of_toNat_eq h)
    refine .inr ⟨_, _, hpos, rfl, ?_⟩
    subst hzero
    decide
  · have hpos : 0 < (1#1 ++ m).toNat := by
      rw [BitVec.toNat_append, Nat.pos_iff_ne_zero]
      exact fun h => absurd (Nat.or_eq_zero_iff.mp h).1 (by decide)
    refine .inr ⟨_, _, hpos, rfl, ?_⟩
    show (e.toNat : ℤ) - 1075 ≤ _
    omega

/-- A finite number that is packed keeps its sign.  It overflows only if its exponent is large, and
otherwise comes back with an exponent that is no larger, or is the least one of the format. -/
theorem unpack_pack_finite (s : Sign) (m : ℕ) (e : ℤ) (h : 0 < m) :
    (971 < e ∧ (Float.Model.pack (.finite s m e h)).unpack = .infinity s) ∨
    (Float.Model.pack (.finite s m e h)).unpack = .zero s ∨
    ∃ m' e' h', (Float.Model.pack (.finite s m e h)).unpack = .finite s m' e' h' ∧
      e' ≤ max e (-1074) := by
  have hbias : Format.binary64.exponentBias = 1023 := rfl
  simp only [Float.Model.pack, Float.Model.unpack, UnpackedFloat.pack, hbias]
  split_ifs with hbig hnormal
  · refine .inl ⟨by omega, ?_⟩
    cases s <;> rfl
  · right
    have hexp : (BitVec.ofNat 11 (e + 1023 + 52).toNat).toNat = (e + 1023 + 52).toNat :=
      Nat.mod_eq_of_lt (by omega)
    have hne : BitVec.ofNat 11 (e + 1023 + 52).toNat ≠ -1#11 := by
      intro heq
      have hall : (e + 1023 + 52).toNat = 2047 := hexp.symm.trans (congrArg BitVec.toNat heq)
      omega
    rcases unpack_packComponents s _ (BitVec.ofNat 52 m) hne with hz | ⟨m', e', h', hf, hle⟩
    · exact .inl hz
    · exact .inr ⟨m', e', h', hf, by omega⟩
  · right
    rcases unpack_packComponents s 0#11 (BitVec.ofNat 52 m) (by decide) with
      hz | ⟨m', e', h', hf, hle⟩
    · exact .inl hz
    · have hzero : ((0#11).toNat : ℤ) = 0 := rfl
      exact .inr ⟨m', e', h', hf, by omega⟩

/-! ## 2. Rounding -/

/-- The exponent that a mantissa is rounded to. -/
theorem targetExponent_eq (m : ℕ) (e : ℤ) :
    Format.binary64.targetExponent (totalExponent m e) = max (m.log2 + e - 52) (-1074) := by
  show max ((m.log2 : ℤ) + 1 + e - 53) (-1074) = _
  omega

theorem mantissa_shiftRight (em : ExtendedMantissa) (n : ℕ) :
    (em >>> n).mantissa = em.mantissa / 2 ^ n := by
  induction n with
  | zero => simp [HShiftRight.hShiftRight, Nat.repeat]
  | succ n ih =>
    show (em >>> n).mantissa / 2 = _
    rw [ih, Nat.div_div_eq_div_mul, Nat.pow_succ]

theorem roundedMantissa_le (em : ExtendedMantissa) : em.roundedMantissa ≤ em.mantissa + 1 := by
  rcases em with ⟨m, _ | _, _ | _⟩ <;>
    simp only [ExtendedMantissa.roundedMantissa, ExtendedMantissa.accuracy,
      Accuracy.roundToNearestEven] <;> omega

/-- A mantissa that is shifted to its exponent fits. -/
theorem shiftToTargetExponent_exact (m : ℕ) (e : ℤ) :
    (shiftToTargetExponent .binary64 m e .exact).1.mantissa < 2 ^ 53 ∧
    (shiftToTargetExponent .binary64 m e .exact).2 = max e (max (m.log2 + e - 52) (-1074)) := by
  simp only [shiftToTargetExponent, shiftToExponent, targetExponent_eq, mantissa_shiftRight,
    ExtendedMantissa.ofMantissaAndAccuracy]
  refine ⟨?_, by omega⟩
  rw [Nat.div_lt_iff_lt_mul (Nat.two_pow_pos _), ← Nat.pow_add]
  exact Nat.lt_of_lt_of_le Nat.lt_log2_self (Nat.pow_le_pow_right (by decide) (by omega))

/-- What is rounded to the exponent `t` is a number of that exponent, or overflows its mantissa and
is the least number of the next one. -/
def RoundsTo (s : Sign) (t : ℤ) (x : UnpackedFloat) : Prop :=
  x = .zero s ∨ (∃ m h, x = .finite s m t h) ∨ x = .finite s (2 ^ 52) (t + 1) (by decide)

theorem shiftToTargetExponent_of_fits {m : ℕ} {e : ℤ} (hm : m < 2 ^ 53) (he : -1074 ≤ e) :
    shiftToTargetExponent .binary64 m e .exact = (⟨m, false, false⟩, e) := by
  have hlog : m.log2 ≤ 52 := by
    rcases Nat.eq_zero_or_pos m with rfl | hpos
    · decide
    · exact Nat.le_of_lt_succ ((Nat.log2_lt hpos.ne').mpr hm)
  have hshift : (max ((m.log2 : ℤ) + e - 52) (-1074) - e).toNat = 0 := by omega
  simp only [shiftToTargetExponent, shiftToExponent, targetExponent_eq, hshift]
  exact Prod.ext rfl (by simp)

theorem shiftToTargetExponent_of_overflows {e : ℤ} (he : -1074 ≤ e) :
    shiftToTargetExponent .binary64 (2 ^ 53) e .exact = (⟨2 ^ 52, false, false⟩, e + 1) := by
  have hshift : (max (((2 ^ 53 : ℕ).log2 : ℤ) + e - 52) (-1074) - e).toNat = 1 := by
    rw [Nat.log2_two_pow]
    omega
  simp only [shiftToTargetExponent, shiftToExponent, targetExponent_eq, hshift]
  rfl

theorem roundsTo_roundWithAccuracy (s : Sign) (m : ℕ) (e : ℤ) :
    RoundsTo s (max e (max (m.log2 + e - 52) (-1074)))
      (roundWithAccuracy .binary64 s m e .exact) := by
  obtain ⟨hfit, hexp⟩ := shiftToTargetExponent_exact m e
  rw [roundWithAccuracy, ← hexp]
  generalize shiftToTargetExponent .binary64 m e .exact = shifted at hfit hexp
  have hleast : -1074 ≤ shifted.2 := by omega
  rcases Nat.lt_or_eq_of_le ((roundedMantissa_le shifted.1).trans hfit) with hlt | heq
  · simp only [shiftToTargetExponent_of_fits hlt hleast]
    split_ifs with hzero
    · exact .inl rfl
    · exact .inr (.inl ⟨_, _, rfl⟩)
  · simp only [heq, shiftToTargetExponent_of_overflows hleast]
    exact .inr (.inr rfl)

theorem log2_shiftLeft {m : ℕ} (hm : m ≠ 0) (n : ℕ) : (m <<< n).log2 = m.log2 + n := by
  induction n with
  | zero => rfl
  | succ n ih =>
    have hne : m <<< n ≠ 0 := mt Nat.shiftLeft_eq_zero_iff.mp hm
    rw [Nat.shiftLeft_succ, Nat.log2_two_mul hne, ih, Nat.add_assoc]

/-- **Rounding gives the exponent that belongs to a mantissa**, or the next power of two. -/
theorem roundsTo_round (s : Sign) {m : ℕ} (hm : m ≠ 0) (e : ℤ) :
    RoundsTo s (max (m.log2 + e - 52) (-1074)) (UnpackedFloat.round .binary64 s m e) := by
  rw [UnpackedFloat.round, decreaseExponent, targetExponent_eq]
  -- the mantissa is lengthened first, which leaves the place of its first digit
  generalize hn : (e - max ((m.log2 : ℤ) + e - 52) (-1074)).toNat = n
  have hround := roundsTo_roundWithAccuracy s (m <<< n) (e - n)
  have htarget : max (e - n) (max (((m <<< n).log2 : ℤ) + (e - n) - 52) (-1074)) =
      max (m.log2 + e - 52) (-1074) := by
    rw [log2_shiftLeft hm]
    omega
  rwa [htarget] at hround

/-! ## 3. Signs -/

/-- Whether a number is on the side of zero that a sign names; zero is on both. -/
def HasSign (s : Sign) : UnpackedFloat → Prop
  | .notANumber => False
  | .zero _ => True
  | .infinity s' => s' = s
  | .finite s' _ _ _ => s' = s

theorem nonneg_iff {x : Float} : 0.0 ≤ x ↔ HasSign .positive (parts x) := by
  rw [le_iff_parts, parts_zero]
  rcases parts x with (_ | _) | _ | (_ | _) | ⟨_ | _, m, e, _⟩ <;>
    simp [UnpackedFloat.le, UnpackedFloat.compare, HasSign]

theorem nonpos_iff {x : Float} : x ≤ 0.0 ↔ HasSign .negative (parts x) := by
  rw [le_iff_parts, parts_zero]
  rcases parts x with (_ | _) | _ | (_ | _) | ⟨_ | _, m, e, _⟩ <;>
    simp [UnpackedFloat.le, UnpackedFloat.compare, HasSign]

theorem HasSign.unpack_pack {s : Sign} {x : UnpackedFloat} (h : HasSign s x) :
    HasSign s (Float.Model.pack x).unpack := by
  cases x with
  | notANumber => exact h.elim
  | infinity s' => cases s' <;> exact h
  | zero s' => cases s' <;> trivial
  | finite s' m e hm =>
    rcases unpack_pack_finite s' m e hm with ⟨-, heq⟩ | heq | ⟨m', e', h', heq, -⟩
    · rw [heq]
      exact h
    · rw [heq]
      trivial
    · rw [heq]
      exact h

theorem hasSign_round (s : Sign) {m : ℕ} (hm : m ≠ 0) (e : ℤ) :
    HasSign s (UnpackedFloat.round .binary64 s m e) := by
  rcases roundsTo_round s hm e with heq | ⟨m', h', heq⟩ | heq <;> rw [heq]
  · trivial
  · rfl
  · rfl

theorem hasSign_normalize {m : ℤ} (hm : 0 ≤ m) (e : ℤ) :
    HasSign .positive (UnpackedFloat.normalize .binary64 m e .positive) := by
  rw [UnpackedFloat.normalize]
  rcases hm.lt_or_eq with hpos | rfl
  · rw [compare_gt_iff_gt.mpr hpos]
    exact hasSign_round .positive (by omega) e
  · trivial

/-- **A sum of numbers that are not negative is not negative.** -/
theorem hasSign_add : ∀ {x y : UnpackedFloat}, HasSign .positive x → HasSign .positive y →
    HasSign .positive (UnpackedFloat.add .binary64 x y)
  | .infinity _, .infinity _, rfl, rfl => rfl
  | .infinity _, .zero _, rfl, _ => rfl
  | .infinity _, .finite .., rfl, _ => rfl
  | .zero _, .infinity _, _, rfl => rfl
  | .zero s, .zero s', _, _ => by cases s <;> cases s' <;> trivial
  | .zero _, .finite .., _, rfl => rfl
  | .finite .., .infinity _, _, rfl => rfl
  | .finite .., .zero _, rfl, _ => rfl
  | .finite _ m e _, .finite _ m' e' _, rfl, rfl => by
    exact hasSign_normalize (Int.add_nonneg (Int.natCast_nonneg _) (Int.natCast_nonneg _)) _

theorem add_nonneg {a b : Float} (ha : 0.0 ≤ a) (hb : 0.0 ≤ b) : 0.0 ≤ a + b :=
  nonneg_iff.mpr (hasSign_add (nonneg_iff.mp ha) (nonneg_iff.mp hb)).unpack_pack

/-! ## 4. Differences -/

/-- A positive number is less than a half if its exponent is. -/
theorem pack_le_half {m : ℕ} {e : ℤ} (hm : 0 < m) (he : e < -53) :
    (Float.Model.pack (.finite .positive m e hm)).unpack.le (parts 0.5) = true := by
  rcases unpack_pack_finite .positive m e hm with ⟨hbig, -⟩ | heq | ⟨m', e', hm', heq, he'⟩
  · omega
  · rw [heq]
    rfl
  · have hless : compare e' (-53) = .lt := compare_lt_iff_lt.mpr (by omega)
    rw [heq, parts_half, UnpackedFloat.le, UnpackedFloat.compare, hless]
    rfl

/-- A positive number below a half is rounded to a half at most. -/
theorem round_le_half {m : ℕ} (hm : m ≠ 0) {e : ℤ} (hlt : m.log2 + e ≤ -2) :
    (Float.Model.pack (UnpackedFloat.round .binary64 .positive m e)).unpack.le (parts 0.5) =
      true := by
  have htarget : max ((m.log2 : ℤ) + e - 52) (-1074) < -53 := by omega
  rcases roundsTo_round .positive hm e with heq | ⟨m', hm', heq⟩ | heq
  · rw [heq]
    rfl
  · rw [heq]
    exact pack_le_half hm' htarget
  · rw [heq]
    -- a mantissa that overflows may give a half itself
    rcases (Int.add_one_le_of_lt htarget).lt_or_eq with hless | hhalf
    · exact pack_le_half (by decide) hless
    · simp only [hhalf]
      rfl

theorem HasSign.le_half : ∀ {x : UnpackedFloat}, HasSign .negative x → x.le (parts 0.5) = true
  | .infinity _, rfl => rfl
  | .zero _, _ => rfl
  | .finite .., rfl => rfl

/-- What is taken off may exceed the half, equal it or leave something that is rounded. -/
theorem half_sub_finite {m : ℕ} {e : ℤ} (hm : 0 < m) :
    (Float.Model.pack (UnpackedFloat.sub .binary64 (parts 0.5)
      (.finite .positive m e hm))).unpack.le (parts 0.5) = true := by
  simp only [parts_half, UnpackedFloat.sub, UnpackedFloat.normalize, decreaseExponent, Sign.apply]
  generalize hk : min (-53) e = k
  generalize hi : (-53 - k).toNat = i
  generalize hj : m <<< (e - k).toNat = n
  split
  · next hneg =>
    have hneg := compare_lt_iff_lt.mp hneg
    exact (hasSign_round .negative (by omega) k).unpack_pack.le_half
  · rfl
  · next hpos =>
    have hpos := compare_gt_iff_gt.mp hpos
    have hlog : (((2 ^ 52 <<< i : ℕ) : ℤ) - n).toNat.log2 < 52 + i := by
      have hn : 0 < n := hj ▸ Nat.shiftLeft_pos_iff.mpr hm
      have hless : (((2 ^ 52 <<< i : ℕ) : ℤ) - n).toNat < 2 ^ 52 <<< i := by omega
      rwa [Nat.log2_lt (by omega), Nat.pow_add, ← Nat.shiftLeft_eq]
    exact round_le_half (by omega) (by omega)

/-- **A half less a penalty is at most a half.** -/
theorem half_sub_le {p : Float} (hp : 0.0 ≤ p) : 0.5 - p ≤ 0.5 := by
  have hle : ∀ x, HasSign .positive x →
      (Float.Model.pack (UnpackedFloat.sub .binary64 (parts 0.5) x)).unpack.le (parts 0.5) = true
    | .infinity _, rfl => rfl
    | .zero s, _ => by cases s <;> rfl
    | .finite _ _ _ hm, rfl => half_sub_finite hm
  exact le_iff_parts.mpr (hle (parts p) (nonneg_iff.mp hp))

theorem zero_sub_le {p : Float} (hp : 0.0 ≤ p) : 0.0 - p ≤ 0.0 := by
  have hneg : ∀ x, HasSign .positive x →
      HasSign .negative (UnpackedFloat.sub .binary64 (parts 0.0) x)
    | .infinity _, rfl => rfl
    | .zero s, _ => by cases s <;> trivial
    | .finite .., rfl => rfl
  exact nonpos_iff.mpr (hneg (parts p) (nonneg_iff.mp hp)).unpack_pack

end CodeAudit.Number
