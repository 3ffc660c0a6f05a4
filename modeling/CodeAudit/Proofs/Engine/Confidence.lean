import CodeAudit.Proofs.Engine.AutoFix
import CodeAudit.Proofs.Security.Confidence

/-!
# The confidence in every report

The settings of an engine may hold any finite numbers, also such as `Settings.check` refuses: a base
confidence of seven, a penalty below zero, penalties whose sum overflows.  None of that shows in a
report.  What a detector finds is brought between zero and one when it is found; what validation
makes of it may lie anywhere, but is finite (`Settings.IsFinite.base`), and the penalty is a number
(`Settings.IsFinite.penaltyOf`), so that what is left of the confidence is a number, which is then
brought between zero and one and decides alone whether a finding is safe.

So **every confidence in every report lies between zero and one**, and no setting makes a
vulnerability or a duplicate safe to fix.
-/

namespace CodeAudit

open Number

/-! ## 1. Finite settings -/

/-- All values of the settings that are meant to lie between zero and one are finite. -/
def Settings.IsFinite (s : Settings) : Prop := ∀ x ∈ s.unitValues.map Prod.snd, x.isFinite = true

namespace Settings.IsFinite

variable {s : Settings}

theorem detectors (h : s.IsFinite) : s.detectors.Numeric := by
  intro x hx
  have hlast : s.detectors.values = (s.unitValues.map Prod.snd).drop 10 := rfl
  exact le_self_of_isFinite (h x (List.mem_of_mem_drop (hlast ▸ hx)))

/-- A base confidence is one of the settings, or zero. -/
theorem base (h : s.IsFinite) (kind : FindingKind) (e : Evidence) :
    (Confidence.base s.confidence kind e).isFinite = true := by
  have hzero : (0.0 : Float).isFinite = true := rfl
  have hother : s.confidence.other.isFinite = true := h _ (by simp [unitValues])
  cases kind with
  | orphanedCode =>
    simp only [Confidence.base]
    split
    · exact hzero
    · exact h _ (by simp [unitValues])
  | unusedVariable =>
    simp only [Confidence.base]
    split
    · exact hzero
    · exact h _ (by simp [unitValues])
  | emptyCatch =>
    simp only [Confidence.base]
    split
    · exact hzero
    · exact h _ (by simp [unitValues])
  | duplicateFunction => exact h s.confidence.duplicate (by simp [unitValues])
  | _ => exact hother

/-- **A penalty is a number**, even where the sum of penalties overflows. -/
theorem penaltyOf (h : s.IsFinite) (m : RiskMarkers) :
    RiskMarkers.penaltyOf s.penalties m ≤ RiskMarkers.penaltyOf s.penalties m := by
  have hpart : ∀ (found : Bool) {x : Float}, x.isFinite = true →
      (if found then x else 0.0).isFinite = true := by
    intro found x hx
    split
    · exact hx
    · rfl
  have hcut : ∀ {x : Float}, x ≤ x → (if x < 1.0 then x else 1.0) ≤ if x < 1.0 then x else 1.0 := by
    intro x hx
    split
    · exact hx
    · exact inUnit_one.2
  unfold RiskMarkers.penaltyOf
  split
  · exact le_self_of_isFinite (h _ (by simp [unitValues]))
  · have hreflection := hpart m.reflection (h s.penalties.reflection (by simp [unitValues]))
    have hdynamic := hpart m.dynamicImport (h s.penalties.dynamicImport (by simp [unitValues]))
    have hplugin := hpart m.plugin (h s.penalties.plugin (by simp [unitValues]))
    exact hcut (add_finite (add_finite (add_finite inUnit_zero.1 hreflection) hdynamic) hplugin)

end Settings.IsFinite

/-! ## 2. Reports -/

namespace Finding

variable {c : Confidences} {m : RiskMarkers} {f : Finding}

theorem IsFresh.isAdvisory (h : f.IsFresh) : f.IsAdvisory := by
  refine ⟨?_, h.autoFixSafe⟩
  rw [h.confidence]
  exact inUnit_half

theorem inUnit_penalize (hf : f.confidence.isFinite = true) (hm : m.penalty ≤ m.penalty) :
    InUnit (f.penalize c m).confidence :=
  inUnit_clampUnit (finite_sub hf hm)

end Finding

namespace Engine

/-- At the end of a course every confidence lies between zero and one. -/
theorem Course.inUnit_of_mem_report {s : Settings} {parse : Parser} {answers : Batch.Answers}
    (c : Course s parse answers) (hfinite : s.IsFinite) {g : Finding}
    (hg : g ∈ c.report.findings) : InUnit g.confidence := by
  obtain ⟨i, hi⟩ := List.mem_iff_getElem?.mp hg
  have hpenalty : c.markers.penalty ≤ c.markers.penalty := by
    rw [markers, c.made.settings_eq.1, RiskMarkers.penalty_ofSource]
    exact hfinite.penaltyOf _
  obtain ⟨f, hf, ⟨e, -, rfl⟩ | rfl⟩ := c.exists_found hi
  · exact Finding.inUnit_penalize (hfinite.base f.kind e) hpenalty
  · have hfresh := isFresh_of_analyze c.analyzed (List.mem_of_getElem? hf)
    refine Finding.inUnit_penalize ?_ hpenalty
    rw [hfresh.confidence]
    rfl

/-- At the end of a course a finding is safe if its kind can be fixed and its confidence is what is
asked for, whatever it was when the finding was made or validated. -/
theorem Course.autoFixSafe_iff {s : Settings} {parse : Parser} {answers : Batch.Answers}
    (c : Course s parse answers) {g : Finding} (hg : g ∈ c.report.findings) :
    g.autoFixSafe = true ↔ (g.kind ≠ .duplicateFunction ∧ g.kind.isSecurity = false) ∧
      s.confidence.autoFixThreshold ≤ g.confidence := by
  obtain ⟨i, hi⟩ := List.mem_iff_getElem?.mp hg
  obtain ⟨f, -, ⟨e, -, rfl⟩ | rfl⟩ := c.exists_found hi
  · exact Finding.autoFixSafe_penalize_iff
  · exact Finding.autoFixSafe_penalize_iff

/-- A scan for security reports at confidences between zero and one, and asks for no fix. -/
theorem isAdvisory_of_analyzeSecurity {e : Engine} (hnumeric : e.settings.detectors.Numeric)
    {parse : Parser} {withdrawn : Bool} {source language : String} {filter : SeverityFilter}
    {report : SecurityReport}
    (h : e.analyzeSecurity parse withdrawn source language filter = .ok report) :
    (∀ v ∈ report.vulnerabilities, InUnit v.confidence) ∧
      ∀ f ∈ report.findings ++ report.middleware, f.IsAdvisory := by
  unfold analyzeSecurity at h
  cases hsupport : Support.ofName language with
  | error cause =>
    rw [hsupport] at h
    cases h
  | ok support =>
    rw [hsupport] at h
    simp only [Except.bind] at h
    split at h
    · cases h
    · obtain rfl := Except.ok.inj h
      have hscores : (support.snippet parse source.toList (support.languageName language)
          e.settings.detectors).1.scores.Numeric := by
        cases support <;> exact hnumeric
      have hkept : ∀ v ∈ (Battery.security support (support.snippet parse source.toList
          (support.languageName language) e.settings.detectors).1).vulnerabilities.filter
            (fun v => filter.keeps v.severity), InUnit v.confidence := by
        intro v hv
        exact Battery.inUnit_of_mem_vulnerabilities hscores (List.mem_filter.mp hv).1
      refine ⟨hkept, ?_⟩
      intro f hf
      rcases List.mem_append.mp hf with hfinding | hmiddleware
      · obtain ⟨v, hv, rfl⟩ := List.mem_map.mp hfinding
        exact Vulnerability.isAdvisory_toFinding (hkept v hv)
      · exact Battery.isAdvisory_of_mem_middleware hscores hmiddleware

/-! ## 3. All of them -/

/-- **Every confidence in every report lies between zero and one, and it decides what is safe.**  For
settings that hold finite numbers, accepted or not, and an engine that was made with them: what an
analysis or a scan finds, whoever filled the cache, has a confidence between zero and one and is not
to be fixed; after validation, whatever became of the checks, a finding has a confidence between zero
and one, and is safe exactly if its kind can be fixed and that confidence reaches the threshold. -/
theorem confidence_bounded_in_reports (s : Settings) (hfinite : s.IsFinite) :
    (∀ e parse calls settings start r now report,
      (Engine.analyze e parse r now (after parse calls (.new settings start))).1 = .ok report →
      ∀ f ∈ report.findings, f.IsAdvisory) ∧
    (∀ e, MadeWith s e → ∀ parse withdrawn source language filter report,
      e.analyzeSecurity parse withdrawn source language filter = .ok report →
      (∀ v ∈ report.vulnerabilities, InUnit v.confidence) ∧
        ∀ f ∈ report.findings ++ report.middleware, f.IsAdvisory) ∧
    (∀ e, MadeWith s e → ∀ parse calls settings start d file root r now report,
      (e.analyzeInProject parse d file root r now (after parse calls (.new settings start))).1 =
        .ok report →
      ∀ g ∈ report.findings, InUnit g.confidence ∧
        (g.autoFixSafe = true ↔ (g.kind ≠ .duplicateFunction ∧ g.kind.isSecurity = false) ∧
          s.confidence.autoFixThreshold ≤ g.confidence)) ∧
    ∀ parse answers (c : Course s parse answers), ∀ g ∈ c.report.findings, InUnit g.confidence ∧
      (g.autoFixSafe = true ↔ (g.kind ≠ .duplicateFunction ∧ g.kind.isSecurity = false) ∧
        s.confidence.autoFixThreshold ≤ g.confidence) := by
  refine ⟨?_, ?_, ?_, ?_⟩
  · intro e parse calls settings start r now report h f hf
    exact (isFresh_of_analyze h hf).isAdvisory
  · intro e hmade parse withdrawn source language filter report h
    refine isAdvisory_of_analyzeSecurity ?_ h
    rw [hmade.settings_eq.1]
    exact hfinite.detectors
  · intro e hmade parse calls settings start d file root r now report h g hg
    obtain ⟨c, -, rfl⟩ : ∃ c : Course s parse fun _ _ => True, c.request = r ∧ c.report = report :=
      exists_course hmade (fun _ _ _ => trivial) h
    exact ⟨c.inUnit_of_mem_report hfinite hg, c.autoFixSafe_iff hg⟩
  · intro parse answers c g hg
    exact ⟨c.inUnit_of_mem_report hfinite hg, c.autoFixSafe_iff hg⟩

/-- Settings that are refused: a base confidence of seven, and generated code that adds three. -/
def wildSettings : Settings :=
  { confidence := { orphaned := 7.0 }, penalties := { generated := -3.0 } }

/-- Under settings that are refused, the function that nothing calls is as sure as can be, and no
more. -/
theorem wild_orphan_bounded :
    wildSettings.IsFinite ∧ wildSettings.check.toOption = none ∧
    ∃ report, ((Engine.new wildSettings).analyzeInProject lonely
        ⟨.directory [("project", .directory [])], []⟩ (.ofString "/project/util.go")
        (.ofString "/project") lonelyRequest 0 (.new {} 0)).1 = .ok report ∧
      report.findings.map (fun g => (g.kind, g.validated, g.confidence == 1.0)) =
        [(.orphanedCode, true, true)] ∧
      ∀ g ∈ report.findings, InUnit g.confidence := by
  have hfinite : wildSettings.IsFinite := by
    unfold Settings.IsFinite
    decide +kernel
  have hreport : ((Engine.new wildSettings).analyzeInProject lonely
      ⟨.directory [("project", .directory [])], []⟩ (.ofString "/project/util.go")
      (.ofString "/project") lonelyRequest 0 (.new {} 0)).1.toOption.map
        (fun report => report.findings.map fun g => (g.kind, g.validated, g.confidence == 1.0)) =
      some [(.orphanedCode, true, true)] := by
    decide +kernel
  cases hanswer : ((Engine.new wildSettings).analyzeInProject lonely
      ⟨.directory [("project", .directory [])], []⟩ (.ofString "/project/util.go")
      (.ofString "/project") lonelyRequest 0 (.new {} 0)).1 with
  | error fault =>
    rw [hanswer] at hreport
    cases hreport
  | ok report =>
    rw [hanswer] at hreport
    refine ⟨hfinite, by decide +kernel, report, rfl, Option.some.inj hreport, ?_⟩
    intro g hg
    exact ((confidence_bounded_in_reports wildSettings hfinite).2.2.1 _ .new lonely [] {} 0 _ _ _ _ _
      report hanswer g hg).1

end Engine

end CodeAudit
