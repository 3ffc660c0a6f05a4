import CodeAudit.Proofs.Confidence.Eligibility
import CodeAudit.Proofs.Engine.History
import CodeAudit.Proofs.Tree.Nodes
import CodeAudit.Proofs.Validation.Settle

/-!
# Fixes and evidence

A request in a project goes through three passes: the analysis, which may answer from a cache that
others have filled; the batch of checks, which may be cut off anywhere; and the penalty of the risk
markers, after which it is decided anew which findings may be fixed without a human.  A *course*
(`Course`) is one way for all this to go.

The last pass looks at the confidence of a finding and not at how it came by it, so whether a safe
finding has evidence behind it is a matter of the threshold.  **Above a half, every safe finding was
validated and cleared by its own check** (`validated_of_safe`, `backed_of_validated`); above zero,
every safe finding that was validated.  At each bound there is a course on which it fails
(`exists_safe_of_le_half`, `exists_unbacked_of_le_zero`).
-/

namespace CodeAudit.Engine

/-! ## 1. Engines and courses -/

/-- An engine with some settings, fresh or after any number of analyses in projects. -/
inductive MadeWith (s : Settings) : Engine → Prop
  | new : MadeWith s (.new s)
  | analyzed {e : Engine} (h : MadeWith s e) (parse : Parser) (d : Disk) (file root : Path)
      (r : QualityRequest) (now : Instant) (cache : ResultCache) :
      MadeWith s (e.analyzeInProject parse d file root r now cache).2.1

/-- An analysis at most adds to the searches that the engine remembers. -/
theorem analyzeInProject_engine (e : Engine) (parse : Parser) (d : Disk) (file root : Path)
    (r : QualityRequest) (now : Instant) (cache : ResultCache) :
    (e.analyzeInProject parse d file root r now cache).2.1.settings = e.settings ∧
    (e.analyzeInProject parse d file root r now cache).2.1.validator.confidences =
      e.validator.confidences := by
  unfold analyzeInProject
  cases e.analyze parse r now cache with
  | mk answer left =>
    cases answer with
    | error fault => exact ⟨rfl, rfl⟩
    | ok report =>
      refine ⟨rfl, ?_⟩
      simp only [Validator.validate]
      split <;> rfl

/-- **An engine keeps its settings, and validates by them.** -/
theorem MadeWith.settings_eq {s : Settings} {e : Engine} (h : MadeWith s e) :
    e.settings = s ∧ e.validator.confidences = s.confidence := by
  induction h with
  | new => exact ⟨rfl, rfl⟩
  | analyzed h parse d file root r now cache ih =>
    obtain ⟨hsettings, hconfidences⟩ := analyzeInProject_engine _ parse d file root r now cache
    exact ⟨hsettings.trans ih.1, hconfidences.trans ih.2⟩

/-- What a cache gives out was found by a check, whatever the history, so it is fresh. -/
theorem isFresh_of_analyze {e : Engine} {parse : Parser} {r : QualityRequest} {now start : Instant}
    {calls : List Call} {settings : CacheSettings} {report : QualityReport}
    (h : (e.analyze parse r now (after parse calls (.new settings start))).1 = .ok report)
    {f : Finding} (hf : f ∈ report.findings) : f.IsFresh := by
  have hempty : (ResultCache.new settings start).Holds (Stored parse (calls.map Call.request)) :=
    ResultCache.holds_new settings
  have hcache := stored_after calls (fun call hcall => List.mem_map_of_mem hcall) hempty
  cases htask : r.task with
  | error cause =>
    rw [analyze_of_refused htask] at h
    cases h
  | ok t =>
    rcases @answer_cases e parse r t now _ _ hcache htask with
      ⟨result, ⟨q, -, t', -, -, rfl⟩, hanswer⟩ | hanswer | ⟨-, hanswer⟩
    · obtain rfl := Except.ok.inj (hanswer.symm.trans h)
      exact Battery.isFresh_of_mem_quality hf
    · obtain rfl := Except.ok.inj (hanswer.symm.trans h)
      exact Battery.isFresh_of_mem_quality hf
    · cases hanswer.symm.trans h

/-- One way for a request in a project to go, where the checks may answer as `answers` says. -/
structure Course (s : Settings) (parse : Parser) (answers : Batch.Answers) where
  engine : Engine
  made : MadeWith s engine
  /-- The calls that came before, to any engines with the same cache. -/
  calls : List Call
  cacheSettings : CacheSettings
  start : Instant
  request : QualityRequest
  now : Instant
  /-- The findings before validation. -/
  found : QualityReport
  analyzed :
    (engine.analyze parse request now (after parse calls (.new cacheSettings start))).1 = .ok found
  batch : BatchResult
  ended :
    Batch.Ends (max s.validation.maxConcurrency 1) answers (Job.ofFindings found.findings) batch

namespace Course

variable {s : Settings} {parse : Parser} {answers : Batch.Answers}

def markers (c : Course s parse answers) : RiskMarkers :=
  .ofSource c.engine.settings.penalties c.request.source.toList c.request.language

/-- The report at the end of a course. -/
def report (c : Course s parse answers) : QualityReport :=
  c.engine.complete c.found
    (Validation.settle c.engine.validator.confidences c.found.findings
      (Job.ofFindings c.found.findings) c.batch) c.markers

/-- The finding that ends as `g` was validated, and its own check came back with evidence that
speaks for a fix. -/
structure Backed (c : Course s parse answers) (i : Nat) (g : Finding) : Prop where
  validated : g.validated = true
  cleared : ∃ f job e, c.found.findings[i]? = some f ∧ Job.ofFinding? i f = some job ∧
    (i, .ok e) ∈ c.batch.outcomes ∧ answers job (.ok e) ∧ e.Clears g.kind

/-! ## 2. What becomes of a finding -/

variable (c : Course s parse answers) {i : Nat} {g : Finding}

/-- A finding of the report is one that was found, scored anew if its check came back with a result,
less the penalty. -/
theorem exists_found (hg : c.report.findings[i]? = some g) :
    ∃ f, c.found.findings[i]? = some f ∧
      ((∃ e, (i, .ok e) ∈ c.batch.outcomes ∧
          g = (f.rescore s.confidence e).penalize s.confidence c.markers) ∨
        g = f.penalize s.confidence c.markers) := by
  obtain ⟨hsettings, hconfidences⟩ := c.made.settings_eq
  have hnodup := c.ended.nodup (Job.nodup_index_ofFindings c.found.findings)
  simp only [report, complete, List.getElem?_map, Validation.settle_fst, hsettings,
    hconfidences] at hg
  obtain ⟨settled, hsettled, rfl⟩ := Option.map_eq_some_iff.mp hg
  by_cases hresult : ∃ e, (i, .ok e) ∈ c.batch.outcomes
  · obtain ⟨e, he⟩ := hresult
    rw [Validation.getElem?_foldl_of_mem _ hnodup he] at hsettled
    obtain ⟨f, hf, rfl⟩ := Option.map_eq_some_iff.mp hsettled
    exact ⟨f, hf, .inl ⟨e, he, rfl⟩⟩
  · rw [Validation.getElem?_foldl_of_not_mem _ fun e he => hresult ⟨e, he⟩] at hsettled
    exact ⟨settled, hsettled, .inr rfl⟩

theorem penalty_nonneg (haccepted : s.check = .ok ()) : 0.0 ≤ c.markers.penalty := by
  rw [markers, c.made.settings_eq.1]
  exact RiskMarkers.penalty_ofSource_nonneg haccepted _ _

/-- **Above zero, a safe finding that was validated has its evidence.** -/
theorem backed_of_validated (haccepted : s.check = .ok ())
    (hthreshold : 0.0 < s.confidence.autoFixThreshold) (hg : c.report.findings[i]? = some g)
    (hsafe : g.autoFixSafe = true) (hvalidated : g.validated = true) : c.Backed i g := by
  obtain ⟨f, hf, ⟨e, he, rfl⟩ | rfl⟩ := c.exists_found hg
  · obtain ⟨job, hjob, hindex, hanswer⟩ := c.ended.exists_job he
    obtain ⟨f', hf', hmade⟩ := Job.mem_ofFindings.mp hjob
    rw [← hindex] at hf' hmade
    obtain rfl : f = f' := Option.some.inj (hf.symm.trans hf')
    refine ⟨rfl, f, job, e, hf, hmade, he, hanswer, ?_⟩
    by_contra hagainst
    exact Number.not_le_of_lt hthreshold
      (Finding.threshold_le_zero_of_safe (c.penalty_nonneg haccepted) hagainst hsafe)
  · have hfresh := isFresh_of_analyze c.analyzed (List.mem_of_getElem? hf)
    exact absurd (hfresh.validated.symm.trans hvalidated) Bool.false_ne_true

/-- **Above a half, a safe finding was validated.** -/
theorem validated_of_safe (haccepted : s.check = .ok ())
    (hthreshold : 0.5 < s.confidence.autoFixThreshold) (hg : c.report.findings[i]? = some g)
    (hsafe : g.autoFixSafe = true) : g.validated = true := by
  obtain ⟨f, hf, ⟨e, he, rfl⟩ | rfl⟩ := c.exists_found hg
  · rfl
  · have hfresh := isFresh_of_analyze c.analyzed (List.mem_of_getElem? hf)
    exact absurd (Finding.threshold_le_half_of_safe hfresh (c.penalty_nonneg haccepted) hsafe)
      (Number.not_le_of_lt hthreshold)

end Course

/-- An analysis in a project is a course. -/
theorem exists_course {s : Settings} {e : Engine} (hmade : MadeWith s e) {parse : Parser}
    {answers : Batch.Answers} {d : Disk} {file root : Path} {r : QualityRequest}
    {now start : Instant} {calls : List Call} {settings : CacheSettings} {report : QualityReport}
    (hanswers : ∀ job times cache,
      answers job (Check.run (e.validator.scope d file root r.language) times job cache).1)
    (h : (e.analyzeInProject parse d file root r now (after parse calls (.new settings start))).1 =
      .ok report) :
    ∃ c : Course s parse answers, c.request = r ∧ c.report = report := by
  have hroom : 0 < max s.validation.maxConcurrency 1 := by omega
  unfold analyzeInProject at h
  split at h
  · cases h
  · next found cache hfound =>
    obtain ⟨batch, hended, hsettled⟩ := e.validator.exists_ends_validate d found.findings file root
      r.language hroom hanswers fun _ _ => now
    have hanalyzed := congrArg Prod.fst hfound
    refine ⟨⟨e, hmade, calls, settings, start, r, now, found, hanalyzed, batch, hended⟩, rfl, ?_⟩
    rw [← Except.ok.inj h]
    simp only [Course.report, Course.markers, hsettled]

/-! ## 3. A function that nothing calls -/

/-- The tree of a source with one function in it, whose name is the sixth character. -/
def lonely : Parser := fun _ _ =>
  .named "source_file" none 0 11
    [.named "function_declaration" none 0 11
      [.sign "func" 0, .named "identifier" (some "name") 5 6 [],
        .named "parameter_list" (some "parameters") 6 8 [.sign "(" 6, .sign ")" 7],
        .named "block" (some "body") 9 11 [.sign "\x7b" 9, .sign "\x7d" 10]]]

def lonelyRequest : QualityRequest := ⟨"func f() \x7b\x7d", "go", ["orphaned"]⟩

def lonelyTask : QualityTask := ⟨.grammar .go, "go", ⟨[.orphaned]⟩, "func f() \x7b\x7d"⟩

theorem task_lonelyRequest : lonelyRequest.task = .ok lonelyTask := by rfl

/-- The function is the one finding. -/
theorem exists_lonely_finding : ∃ f, (lonelyTask.result lonely).findings = [f] ∧
    f.kind = .orphanedCode ∧ f.quotedName? = some "f" ∧ f.IsFresh := by
  have hfindings : (lonelyTask.result lonely).findings.map (fun f => (f.kind, f.quotedName?)) =
      [(.orphanedCode, some "f")] := by decide +kernel
  obtain ⟨f, hf, hpair⟩ := List.map_eq_singleton_iff.mp hfindings
  have hmem : f ∈ (lonelyTask.result lonely).findings := by
    rw [hf]
    exact List.mem_singleton_self f
  exact ⟨f, hf, congrArg Prod.fst hpair, congrArg Prod.snd hpair,
    Battery.isFresh_of_mem_quality hmem⟩

/-- The course of the request on which the batch of checks ends as it is given. -/
def lonelyCourse (s : Settings) {answers : Batch.Answers} {batch : BatchResult}
    (hended : Batch.Ends (max s.validation.maxConcurrency 1) answers
      (Job.ofFindings (lonelyTask.result lonely).findings) batch) : Course s lonely answers where
  engine := .new s
  made := .new
  -- the result is in the cache, so no setting of the engine can keep it from being given
  calls := [⟨.new {}, lonelyRequest, 0, none⟩]
  cacheSettings := {}
  start := 0
  request := lonelyRequest
  now := 0
  found := reportOfResult (lonelyTask.result lonely)
  analyzed := by
    obtain ⟨left, hget⟩ := get_after_request task_lonelyRequest lonely
    rw [analyze_of_hit task_lonelyRequest hget]
  batch := batch
  ended := hended

section

variable (s : Settings) {answers : Batch.Answers} {batch : BatchResult}
  (hended : Batch.Ends (max s.validation.maxConcurrency 1) answers
    (Job.ofFindings (lonelyTask.result lonely).findings) batch)

theorem findings_lonelyCourse : (lonelyCourse s hended).report.findings =
    (batch.outcomes.foldl (Validation.apply s.confidence) (lonelyTask.result lonely).findings).map
      (Finding.penalize s.confidence (lonelyCourse s hended).markers) := by
  rw [Course.report, complete, Validation.settle_fst]
  rfl

theorem penalty_lonelyCourse : (lonelyCourse s hended).markers.penalty = 0.0 := by
  show (RiskMarkers.ofSource s.penalties lonelyRequest.source.toList
    lonelyRequest.language).penalty = 0.0
  rw [RiskMarkers.penalty_ofSource]
  exact RiskMarkers.penaltyOf_eq_zero _ (by rfl) (by rfl) (by rfl) (by rfl)

end

/-- **At a half or below, a finding whose check was cut off can be safe.** -/
theorem exists_safe_of_le_half {s : Settings} (h : s.confidence.autoFixThreshold ≤ 0.5) :
    ∃ (answers : Batch.Answers) (c : Course s lonely answers) (g : Finding),
      c.report.findings[0]? = some g ∧ g.autoFixSafe = true ∧ g.validated = false := by
  obtain ⟨f, hf, hkind, -, hfresh⟩ := exists_lonely_finding
  have hended : Batch.Ends (max s.validation.maxConcurrency 1) (fun _ _ => True)
      (Job.ofFindings (lonelyTask.result lonely).findings) (.ran []) := .cutOff (.ofJobs _) .refl
  refine ⟨_, lonelyCourse s hended, f.penalize s.confidence (lonelyCourse s hended).markers, ?_, ?_,
    hfresh.validated⟩
  · rw [findings_lonelyCourse, hf]
    rfl
  · rw [Finding.autoFixSafe_penalize_iff, penalty_lonelyCourse, hfresh.confidence, hkind]
    exact ⟨⟨by decide, rfl⟩, h⟩

/-- The name stands in another file. -/
def seenElsewhere : Evidence := { foundInCodebase := true }

/-- **At zero, a finding can be safe with the evidence against it.** -/
theorem exists_unbacked_of_le_zero {s : Settings} (h : s.confidence.autoFixThreshold ≤ 0.0) :
    ∃ (answers : Batch.Answers) (c : Course s lonely answers) (g : Finding),
      c.report.findings[0]? = some g ∧ g.autoFixSafe = true ∧ g.validated = true ∧
        ¬ c.Backed 0 g := by
  obtain ⟨f, hf, hkind, hname, -⟩ := exists_lonely_finding
  have hjobs : Job.ofFindings (lonelyTask.result lonely).findings =
      [⟨0, .orphanedCode, f.line, "f"⟩] := by
    rw [hf]
    simp [Job.ofFindings, Job.ofFinding?, Job.needsName, hkind, hname]
  have hended : Batch.Ends (max s.validation.maxConcurrency 1) (fun _ _ => True)
      (Job.ofFindings (lonelyTask.result lonely).findings) (.ran [(0, .ok seenElsewhere)]) := by
    rw [hjobs]
    exact Batch.ends_in_turn (by omega) (.cons ⟨rfl, trivial⟩ .nil)
  have hagainst : ¬ seenElsewhere.Clears f.kind := by
    rw [hkind]
    exact fun hclears => Bool.false_ne_true hclears.1.symm
  have hbase : (f.rescore s.confidence seenElsewhere).confidence = 0.0 :=
    Confidence.base_of_not_clears hagainst
  have hkind' : (f.rescore s.confidence seenElsewhere).kind = .orphanedCode := hkind
  refine ⟨_, lonelyCourse s hended, (f.rescore s.confidence seenElsewhere).penalize s.confidence
    (lonelyCourse s hended).markers, ?_, ?_, rfl, ?_⟩
  · rw [findings_lonelyCourse, hf]
    rfl
  · rw [Finding.autoFixSafe_penalize_iff, penalty_lonelyCourse, hbase, hkind']
    exact ⟨⟨by decide, rfl⟩, h⟩
  · rintro ⟨-, f', job, e, -, -, hmem, -, hclears⟩
    obtain ⟨⟩ := List.mem_singleton.mp hmem
    exact hagainst hclears

/-! ## 4. The threshold -/

/-- **A threshold above a half is what makes a safe fix need evidence.**  For settings that are
accepted, on every course, whatever history the cache has and whatever becomes of the checks: every
safe finding was validated and cleared by its own check exactly if the threshold is above a half;
every safe finding that was validated was cleared exactly if the threshold is above zero; and what
an engine answers in a project is the report of a course. -/
theorem safe_findings_backed_iff (s : Settings) (haccepted : s.check = .ok ()) :
    ((∀ parse answers (c : Course s parse answers) i g, c.report.findings[i]? = some g →
        g.autoFixSafe = true → c.Backed i g) ↔ 0.5 < s.confidence.autoFixThreshold) ∧
    ((∀ parse answers (c : Course s parse answers) i g, c.report.findings[i]? = some g →
        g.autoFixSafe = true → g.validated = true → c.Backed i g) ↔
      0.0 < s.confidence.autoFixThreshold) ∧
    ∀ e, MadeWith s e → ∀ parse calls settings start d file root r now report,
      (e.analyzeInProject parse d file root r now (after parse calls (.new settings start))).1 =
        .ok report →
      ∀ answers : Batch.Answers, (∀ job times cache,
        answers job (Check.run (e.validator.scope d file root r.language) times job cache).1) →
      ∃ c : Course s parse answers, c.request = r ∧ c.report = report := by
  have hnumber := Number.le_self_of_le (Settings.zero_le_threshold haccepted)
  refine ⟨⟨?_, ?_⟩, ⟨?_, ?_⟩, ?_⟩
  · intro hbacked
    refine (Number.lt_or_le (Number.le_iff_parts.mpr rfl) hnumber).resolve_right fun hle => ?_
    obtain ⟨answers, c, g, hg, hsafe, hvalidated⟩ := exists_safe_of_le_half hle
    have hbacked := hbacked lonely answers c 0 g hg hsafe
    exact Bool.false_ne_true (hvalidated.symm.trans hbacked.validated)
  · intro hthreshold parse answers c i g hg hsafe
    have hzero : 0.0 < s.confidence.autoFixThreshold :=
      Number.lt_of_le_of_lt (Number.nonneg_iff.mpr (by rfl)) hthreshold
    exact c.backed_of_validated haccepted hzero hg hsafe
      (c.validated_of_safe haccepted hthreshold hg hsafe)
  · intro hbacked
    refine (Number.lt_or_le (Number.le_iff_parts.mpr rfl) hnumber).resolve_right fun hle => ?_
    obtain ⟨answers, c, g, hg, hsafe, hvalidated, hnot⟩ := exists_unbacked_of_le_zero hle
    exact hnot (hbacked lonely answers c 0 g hg hsafe hvalidated)
  · intro hthreshold parse answers c i g hg hsafe hvalidated
    exact c.backed_of_validated haccepted hthreshold hg hsafe hvalidated
  · intro e hmade parse calls settings start d file root r now report h answers hanswers
    exact exists_course hmade hanswers h

/-- The settings that an engine has by itself ask for more than a half. -/
theorem default_findings_backed : Settings.check {} = .ok () ∧
    ∀ parse answers (c : Course {} parse answers) i g, c.report.findings[i]? = some g →
      g.autoFixSafe = true → c.Backed i g :=
  ⟨by rfl, (safe_findings_backed_iff {} (by rfl)).1.mpr (Number.lt_iff_parts.mpr rfl)⟩

/-- With a threshold of a half and no time for the checks, the function that nothing calls may be
removed without anyone having looked for it. -/
theorem unvalidated_orphan_safe :
    Settings.check { confidence := { autoFixThreshold := 0.5 }, validation := { timeoutMs := 0 } } =
      .ok () ∧
    ((Engine.new { confidence := { autoFixThreshold := 0.5 }, validation := { timeoutMs := 0 } }
      ).analyzeInProject lonely ⟨.directory [], []⟩ (.ofString "util.go") (.ofString "/project")
        ⟨"func f() \x7b\x7d", "go", ["orphaned"]⟩ 0 (.new {} 0)).1.toOption.map
        (fun report => report.findings.map fun f => (f.kind, f.autoFixSafe, f.validated)) =
      some [(.orphanedCode, true, false)] := by
  refine ⟨by rfl, ?_⟩
  decide +kernel

end CodeAudit.Engine
