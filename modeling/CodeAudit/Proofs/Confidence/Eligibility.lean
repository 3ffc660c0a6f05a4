import CodeAudit.Confidence.Basic
import CodeAudit.Proofs.Number.Arithmetic
import CodeAudit.Proofs.Quality.Fresh

/-!
# What a safe fix says about its finding

Whether a finding may be fixed without a human is decided by its confidence alone, after the penalty
of the risk markers.  A penalty is never negative under settings that are accepted
(`penalty_ofSource_nonneg`), so what the confidence can be at most is known before it is taken off:

* a fresh finding has a half, so it is safe only under a threshold of a half or less
  (`threshold_le_half_of_safe`);
* evidence against a fix gives a base of zero, so a finding that was scored by it is safe only under
  a threshold of zero (`threshold_le_zero_of_safe`).
-/

namespace CodeAudit

/-! ## 1. Settings that are accepted -/

/-- Accepted settings have all their values between zero and one. -/
theorem Settings.unit_of_check {s : Settings} (h : s.check = .ok ()) {x : Float}
    (hx : x ∈ s.unitValues.map Prod.snd) : 0.0 ≤ x ∧ x ≤ 1.0 := by
  obtain ⟨value, hvalue, rfl⟩ := List.mem_map.mp hx
  unfold check at h
  split at h
  · cases h
  · next hnone =>
    have hunit := List.find?_eq_none.mp hnone value hvalue
    simpa [isUnit] using hunit

theorem Settings.zero_le_threshold {s : Settings} (h : s.check = .ok ()) :
    0.0 ≤ s.confidence.autoFixThreshold :=
  (unit_of_check h (by simp [unitValues])).1

namespace RiskMarkers

/-- A sum of penalties that are not negative is not negative, nor is it when cut off at one. -/
theorem penaltyOf_nonneg {p : Penalties} (hreflection : 0.0 ≤ p.reflection)
    (hdynamic : 0.0 ≤ p.dynamicImport) (hplugin : 0.0 ≤ p.plugin) (hgenerated : 0.0 ≤ p.generated)
    (m : RiskMarkers) : 0.0 ≤ penaltyOf p m := by
  have hzero : (0.0 : Float) ≤ 0.0 := Number.nonneg_iff.mpr trivial
  have hpart : ∀ (found : Bool) {x : Float}, 0.0 ≤ x → 0.0 ≤ if found then x else 0.0 := by
    intro found x hx
    cases found
    · exact hzero
    · exact hx
  have hcut : ∀ {x : Float}, 0.0 ≤ x → 0.0 ≤ if x < 1.0 then x else 1.0 := by
    intro x hx
    split
    · exact hx
    · exact Number.nonneg_iff.mpr rfl
  unfold penaltyOf
  split
  · exact hgenerated
  · have htotal := Number.add_nonneg hzero (hpart m.reflection hreflection)
    have htotal := Number.add_nonneg htotal (hpart m.dynamicImport hdynamic)
    exact hcut (Number.add_nonneg htotal (hpart m.plugin hplugin))

/-- Without a marker there is no penalty. -/
theorem penaltyOf_eq_zero {m : RiskMarkers} (p : Penalties) (hreflection : m.reflection = false)
    (hdynamic : m.dynamicImport = false) (hplugin : m.plugin = false)
    (hgenerated : m.generated = false) : penaltyOf p m = 0.0 := by
  simp only [penaltyOf, hreflection, hdynamic, hplugin, hgenerated, Bool.false_eq_true, if_false]
  rfl

theorem penalty_ofSource (p : Penalties) (source : List Char) (language : String) :
    (ofSource p source language).penalty = penaltyOf p (ofSource p source language) := by
  simp only [ofSource, penaltyOf]

/-- **Risk markers never raise a confidence** under settings that are accepted. -/
theorem penalty_ofSource_nonneg {s : Settings} (h : s.check = .ok ()) (source : List Char)
    (language : String) : 0.0 ≤ (ofSource s.penalties source language).penalty := by
  rw [penalty_ofSource]
  have hunit {x : Float} (hx : x ∈ s.unitValues.map Prod.snd) : 0.0 ≤ x :=
    (Settings.unit_of_check h hx).1
  exact penaltyOf_nonneg (hunit (by simp [Settings.unitValues]))
    (hunit (by simp [Settings.unitValues])) (hunit (by simp [Settings.unitValues]))
    (hunit (by simp [Settings.unitValues])) _

end RiskMarkers

/-! ## 2. Evidence -/

/-- Nothing that was learned speaks against a fix. -/
def Evidence.Clears (e : Evidence) : FindingKind → Prop
  | .orphanedCode | .unusedVariable => e.foundInCodebase = false ∧ e.isExported = false
  | .emptyCatch => e.hasIntent = false
  | _ => True

/-- **Evidence against a fix gives no confidence at all.** -/
theorem Confidence.base_of_not_clears {c : Confidences} {kind : FindingKind} {e : Evidence}
    (h : ¬ e.Clears kind) : base c kind e = 0.0 := by
  have hused : ¬ (e.foundInCodebase = false ∧ e.isExported = false) →
      (e.foundInCodebase || e.isExported) = true := by
    cases e.foundInCodebase <;> cases e.isExported <;> simp
  cases kind with
  | orphanedCode => exact if_pos (hused h)
  | unusedVariable => exact if_pos (hused h)
  | emptyCatch => exact if_pos (Bool.eq_true_of_not_eq_false h)
  | _ => exact absurd trivial h

/-! ## 3. Safe findings -/

namespace Finding

variable {c : Confidences} {m : RiskMarkers} {e : Evidence} {f : Finding}

/-- A finding is safe if its kind can be fixed and its confidence is what is asked for. -/
theorem autoFixSafe_penalize_iff : (f.penalize c m).autoFixSafe = true ↔
    (f.kind ≠ .duplicateFunction ∧ f.kind.isSecurity = false) ∧
      c.autoFixThreshold ≤ clampUnit (f.confidence - m.penalty) := by
  simp [penalize, Confidence.isSafe]

/-- A fresh finding is safe under no threshold above a half. -/
theorem threshold_le_half_of_safe (hfresh : f.IsFresh) (hpenalty : 0.0 ≤ m.penalty)
    (h : (f.penalize c m).autoFixSafe = true) : c.autoFixThreshold ≤ 0.5 := by
  have hle := (autoFixSafe_penalize_iff.mp h).2
  rw [hfresh.confidence] at hle
  have hhalf : (0.0 : Float) ≤ 0.5 := Number.nonneg_iff.mpr rfl
  exact Number.le_trans hle (Number.clampUnit_le (Number.half_sub_le hpenalty) hhalf)

/-- A finding with evidence against a fix is safe under no threshold above zero. -/
theorem threshold_le_zero_of_safe (hpenalty : 0.0 ≤ m.penalty) (hevidence : ¬ e.Clears f.kind)
    (h : ((f.rescore c e).penalize c m).autoFixSafe = true) : c.autoFixThreshold ≤ 0.0 := by
  have hbase : (f.rescore c e).confidence = 0.0 := Confidence.base_of_not_clears hevidence
  have hle := (autoFixSafe_penalize_iff.mp h).2
  rw [hbase] at hle
  have hzero : (0.0 : Float) ≤ 0.0 := Number.nonneg_iff.mpr trivial
  exact Number.le_trans hle (Number.clampUnit_le (Number.zero_sub_le hpenalty) hzero)

end Finding

end CodeAudit
