import CodeAudit.Proofs.Confidence.Markers
import CodeAudit.Proofs.Confidence.Statement
import CodeAudit.Proofs.Engine.AutoFix

/-!
# Generated sources

A comment that says that a file was generated (`HasBanner`) takes everything off: its penalty of one
stands in place of all others, and a number between zero and one is zero when one is taken off it,
exactly (`Number.clampUnit_sub`).  Every confidence that reaches the last pass lies between zero and
one, be it a base confidence of accepted settings or the half of a finding whose check failed, was
skipped or ran out of time.  So **no finding in a generated source is ever fixed**
(`Course.isOverwritten_of_mem_report`), and each says why, whatever other markers there are: the
cause of a penalty is that of generated code before any other.
-/

namespace CodeAudit

/-! ## 1. Banners -/

namespace Pattern

variable {p p' : Point} {cs cs' : List Capture}

/-- A chain is its first piece and then the chain of the rest. -/
theorem reaches_chain_cons {a : Pattern} {ps : List Pattern} :
    (chain (a :: ps)).Reaches p cs p' cs' ↔
      ∃ q ds, a.Reaches p cs q ds ∧ (chain ps).Reaches q ds p' cs' := by
  cases ps with
  | nil =>
    constructor
    · intro h
      exact ⟨p', cs', h, rfl, rfl⟩
    · rintro ⟨q, ds, h, rfl, rfl⟩
      exact h
  | cons b ps => exact Iff.rfl

theorem reaches_one_iff {accepts : Char → Bool} :
    (one accepts).Reaches p cs p' cs' ↔
      ∃ c rest, accepts c = true ∧ p.rest = c :: rest ∧ p' = p.after [c] rest ∧ cs' = cs := by
  constructor
  · rintro ⟨c, rest, hrest, hc, rfl, rfl⟩
    exact ⟨c, rest, hc, hrest, p.past_eq_after c rest, rfl⟩
  · rintro ⟨c, rest, hc, hrest, rfl, rfl⟩
    exact ⟨c, rest, hrest, hc, (p.past_eq_after c rest).symm, rfl⟩

/-- **A word in any case takes what folds to it.** -/
theorem reaches_foldings_iff {w : List Char} :
    (chain (w.map fun c => one fun d => fold d == c)).Reaches p cs p' cs' ↔
      ∃ s rest, s.map fold = w ∧ p.rest = s ++ rest ∧ p' = p.after s rest ∧ cs' = cs := by
  induction w generalizing p cs with
  | nil =>
    constructor
    · rintro ⟨rfl, rfl⟩
      exact ⟨[], _, rfl, rfl, (Point.after_nil _).symm, rfl⟩
    · rintro ⟨s, rest, hs, hrest, rfl, rfl⟩
      obtain rfl := List.map_eq_nil_iff.mp hs
      obtain rfl : p.rest = rest := hrest
      exact ⟨p.after_nil, rfl⟩
  | cons c w ih =>
    rw [List.map_cons, reaches_chain_cons]
    simp only [reaches_one_iff, ih, beq_iff_eq]
    constructor
    · rintro ⟨q, ds, ⟨d, rest, hd, hp, rfl, rfl⟩, s, rest', hs, hrest, rfl, rfl⟩
      obtain rfl : rest = s ++ rest' := hrest
      exact ⟨d :: s, rest', by rw [List.map_cons, hd, hs], hp, p.after_after [d] s _ _, rfl⟩
    · rintro ⟨s, rest, hs, hrest, rfl, rfl⟩
      obtain ⟨d, s, rfl, hd, hs⟩ := List.map_eq_cons_iff.mp hs
      exact ⟨p.after [d] (s ++ rest), cs', ⟨d, s ++ rest, hd, hrest, rfl, rfl⟩, s, rest, hs, rfl,
        (p.after_after [d] s _ _).symm, rfl⟩

theorem reaches_oneOf_iff {ps : List Pattern} :
    (oneOf ps).Reaches p cs p' cs' ↔ ∃ pat ∈ ps, pat.Reaches p cs p' cs' := by
  refine ⟨reaches_oneOf, ?_⟩
  rintro ⟨pat, hmem, hreach⟩
  induction ps with
  | nil => cases hmem
  | cons a ps ih =>
    cases ps with
    | nil =>
      obtain rfl := List.mem_singleton.mp hmem
      exact hreach
    | cons b ps =>
      rcases List.mem_cons.mp hmem with rfl | hmem
      · exact .inl hreach
      · exact .inr (ih hmem)

/-- One of some words takes itself. -/
theorem reaches_words_iff {ws : List String} :
    (words ws).Reaches p cs p' cs' ↔
      ∃ w ∈ ws, ∃ rest, p.rest = w.toList ++ rest ∧ p' = p.after w.toList rest ∧ cs' = cs := by
  rw [words, reaches_oneOf_iff]
  simp only [List.mem_map, exists_exists_and_eq_and, word, reaches_exact_iff]

theorem reaches_wordsAnyCase_iff {ws : List String} :
    (wordsAnyCase ws).Reaches p cs p' cs' ↔
      ∃ w ∈ ws, ∃ s rest, s.map fold = w.toList ∧ p.rest = s ++ rest ∧ p' = p.after s rest ∧
        cs' = cs := by
  rw [wordsAnyCase, reaches_oneOf_iff]
  simp only [List.mem_map, exists_exists_and_eq_and, anyCase, reaches_foldings_iff]

end Pattern

namespace Marker

/-- The phrases that say that a file was generated. -/
def bannerPhrases : List String :=
  ["code generated", "do not edit", "this file was generated", "@generated", "autogenerated"]

/-- A comment begins somewhere in the source, and after blanks, if any, one of the phrases follows,
in any letter case. -/
def HasBanner (source : List Char) : Prop :=
  ∃ before blanks phrase after, ∃ opening ∈ commentOpenings, ∃ wanted ∈ bannerPhrases,
    source = before ++ (opening.toList ++ (blanks ++ (phrase ++ after))) ∧
      (∀ c ∈ blanks, Text.isSpace c = true) ∧ phrase.map Pattern.fold = wanted.toList

/-- **The banner is found where it stands.** -/
theorem occursIn_banner_iff {source : List Char} :
    banner.occursIn source = true ↔ HasBanner source := by
  have hbanner : banner =
      .chain [.words commentOpenings, .spaces, .wordsAnyCase bannerPhrases] := rfl
  rw [Pattern.occursIn_iff, hbanner]
  simp only [Pattern.reaches_chain_cons, Pattern.reaches_words_iff, Pattern.spaces, Pattern.space,
    Pattern.reaches_many_one_iff, Pattern.reaches_wordsAnyCase_iff]
  constructor
  · rintro ⟨before, rest, p', cs', rfl, q, ds, ⟨opening, hopening, r, hrest, rfl, rfl⟩, q', ds',
      ⟨blanks, r', hblanks, hr, rfl, rfl⟩, q'', ds'',
      ⟨wanted, hwanted, phrase, after, hphrase, hr', -⟩, -⟩
    obtain rfl : rest = opening.toList ++ r := hrest
    obtain rfl : r = blanks ++ r' := hr
    obtain rfl : r' = phrase ++ after := hr'
    exact ⟨before, blanks, phrase, after, opening, hopening, wanted, hwanted, rfl, hblanks, hphrase⟩
  · rintro ⟨before, blanks, phrase, after, opening, hopening, wanted, hwanted, rfl, hblanks,
      hphrase⟩
    exact ⟨before, _, _, _, rfl, _, _, ⟨opening, hopening, _, rfl, rfl, rfl⟩, _, _,
      ⟨blanks, _, hblanks, rfl, rfl, rfl⟩, _, _,
      ⟨wanted, hwanted, phrase, after, hphrase, rfl, rfl, rfl⟩, rfl, rfl⟩

end Marker

/-! ## 2. Findings -/

open Number

/-- What a finding in a generated source says first. -/
def generatedCause : String := "Generated code detected, manual changes would be overwritten"

/-- A finding that is not to be fixed because its source was generated. -/
structure Finding.IsOverwritten (g : Finding) : Prop where
  confidence : g.confidence = 0.0
  autoFixSafe : g.autoFixSafe = false
  reasoning : generatedCause.toList <+: g.reasoning.toList

theorem Finding.prefix_precede (cause reasoning : String) :
    cause.toList <+: (precede (some cause) reasoning).toList := by
  rw [precede]
  split
  · exact List.prefix_rfl
  · rw [String.append_assoc, String.toList_append]
    exact List.prefix_append _ _

/-- **A penalty of one leaves nothing of a confidence between zero and one**, and the cause of
generated code comes before any other. -/
theorem Finding.isOverwritten_penalize {c : Confidences} {m : RiskMarkers} {f : Finding}
    (hf : InUnit f.confidence) (hgenerated : m.generated = true) (hpenalty : m.penalty = 1.0)
    (hthreshold : 0.0 < c.autoFixThreshold) : (f.penalize c m).IsOverwritten := by
  have hpos : (0.0 : Float) < 1.0 := by decide
  have hzero : clampUnit (f.confidence - m.penalty) = 0.0 := by
    rw [hpenalty]
    exact (clampUnit_sub hf inUnit_one hpos).1 hf.2
  refine ⟨hzero, ?_, ?_⟩
  · rw [Bool.eq_false_iff]
    intro hsafe
    have hle := (autoFixSafe_penalize_iff.mp hsafe).2
    rw [hzero] at hle
    exact not_le_of_lt hthreshold hle
  · have hcause : m.cause? = some generatedCause := if_pos hgenerated
    have hnot : ¬ m.penalty ≤ 0.0 := by
      rw [hpenalty]
      exact not_le_of_lt hpos
    simp only [penalize, if_neg hnot, hcause]
    exact prefix_precede _ _

theorem Settings.inUnit_bases {s : Settings} (h : s.check = .ok ()) :
    ∀ x ∈ s.confidence.bases, InUnit x := by
  intro x hx
  have hpart : s.confidence.bases = ((s.unitValues.map Prod.snd).drop 5).take 5 := rfl
  exact unit_of_check h (List.mem_of_mem_drop (List.mem_of_mem_take (hpart ▸ hx)))

/-! ## 3. Reports -/

namespace Engine

/-- At the end of a course in a generated source no finding is to be fixed. -/
theorem Course.isOverwritten_of_mem_report {s : Settings} {parse : Parser} {answers : Batch.Answers}
    (c : Course s parse answers) (haccepted : s.check = .ok ())
    (hpenalty : s.penalties.generated = 1.0) (hthreshold : 0.0 < s.confidence.autoFixThreshold)
    (hbanner : Marker.HasBanner c.request.source.toList) {g : Finding}
    (hg : g ∈ c.report.findings) : g.IsOverwritten := by
  obtain ⟨i, hi⟩ := List.mem_iff_getElem?.mp hg
  have hgenerated : c.markers.generated = true :=
    RiskMarkers.generated_ofSource_iff.mpr (Marker.occursIn_banner_iff.mpr hbanner)
  have hone : c.markers.penalty = 1.0 := by
    rw [markers, RiskMarkers.penalty_ofSource, ← markers, RiskMarkers.penaltyOf_eq, hgenerated,
      c.made.settings_eq.1, hpenalty]
    rfl
  obtain ⟨f, hf, ⟨e, -, rfl⟩ | rfl⟩ := c.exists_found hi
  · have hbase := Confidence.inUnit_base (Settings.inUnit_bases haccepted) f.kind e
    exact Finding.isOverwritten_penalize hbase hgenerated hone hthreshold
  · have hfresh := isFresh_of_analyze c.analyzed (List.mem_of_getElem? hf)
    have hhalf : InUnit f.confidence := by
      rw [hfresh.confidence]
      exact inUnit_half
    exact Finding.isOverwritten_penalize hhalf hgenerated hone hthreshold

/-- **No finding in a generated source is ever fixed.**  For settings that are accepted, with a
penalty of one for generated code and a threshold above zero: in a source with a banner, whatever
the language, the selectors, the project, the history of the cache and the other markers of the
source, every finding of the report has no confidence left, is not safe, and says first that the
source was generated.  This is so on every course, whichever checks fail, are skipped or run out of
time. -/
theorem generated_source_never_fixed (s : Settings) (haccepted : s.check = .ok ())
    (hpenalty : s.penalties.generated = 1.0) (hthreshold : 0.0 < s.confidence.autoFixThreshold) :
    (∀ e, MadeWith s e → ∀ parse calls settings start d file root r now report,
      Marker.HasBanner r.source.toList →
      (e.analyzeInProject parse d file root r now (after parse calls (.new settings start))).1 =
        .ok report →
      ∀ g ∈ report.findings, g.IsOverwritten) ∧
    ∀ parse answers (c : Course s parse answers), Marker.HasBanner c.request.source.toList →
      ∀ g ∈ c.report.findings, g.IsOverwritten := by
  refine ⟨?_, ?_⟩
  · intro e hmade parse calls settings start d file root r now report hbanner h g hg
    obtain ⟨c, rfl, rfl⟩ : ∃ c : Course s parse fun _ _ => True,
        c.request = r ∧ c.report = report :=
      exists_course hmade (fun _ _ _ => trivial) h
    exact c.isOverwritten_of_mem_report haccepted hpenalty hthreshold hbanner hg
  · intro parse answers c hbanner g hg
    exact c.isOverwritten_of_mem_report haccepted hpenalty hthreshold hbanner hg

/-- A function that nothing calls, in a file that was generated and loads plugins. -/
def generatedRequest : QualityRequest :=
  ⟨"func f() \x7b\x7d\nvar p = plugin.Open(x)\n//\tcode GENERATED by hand", "go", ["orphaned"]⟩

/-- What an engine with its own settings answers in a project without other files. -/
def generatedAnswer : Except Fault QualityReport :=
  ((Engine.new {}).analyzeInProject lonely ⟨.directory [("project", .directory [])], []⟩
    (.ofString "/project/util.go") (.ofString "/project") generatedRequest 0 (.new {} 0)).1

/-- The function is found and validated, and is not to be removed. -/
theorem generated_orphan_kept :
    Settings.check {} = .ok () ∧ Marker.HasBanner generatedRequest.source.toList ∧
    ∃ report, generatedAnswer = .ok report ∧
      report.findings.map (fun g => (g.kind, g.validated)) = [(.orphanedCode, true)] ∧
      ∀ g ∈ report.findings, g.IsOverwritten := by
  have haccepted : Settings.check {} = .ok () := by rfl
  have hbanner : Marker.HasBanner generatedRequest.source.toList :=
    Marker.occursIn_banner_iff.mp (by decide +kernel)
  have hreport : generatedAnswer.toOption.map
      (fun report => report.findings.map fun g => (g.kind, g.validated)) =
      some [(.orphanedCode, true)] := by
    decide +kernel
  cases hanswer : generatedAnswer with
  | error fault =>
    rw [hanswer] at hreport
    cases hreport
  | ok report =>
    rw [hanswer] at hreport
    refine ⟨haccepted, hbanner, report, rfl, Option.some.inj hreport, ?_⟩
    have hfresh : after lonely [] (.new {} 0) = .new {} 0 := rfl
    rw [generatedAnswer, ← hfresh] at hanswer
    exact (generated_source_never_fixed {} haccepted rfl (by decide)).1 _ .new _ _ _ _ _ _ _ _ _ _
      hbanner hanswer

end Engine

end CodeAudit
