import CodeAudit.Engine
import CodeAudit.Proofs.Security.Confidence

/-!
# Nothing is lost in a report of security

The results of the five checks are merged once more before they are reported.  This last merge could
drop results, and it never does: **each check has a kind of its own and finds at most one thing in a
line**, so no line has two results of one kind and there is nothing to merge
(`Battery.vulnerabilities_perm`).  Four checks owe this to a merge at their own end; the one for
ciphers goes through the lines and makes at most one result of each (`Security.nodup_weakCrypto`).

A report for one severity is the report for all of them, with the other severities left out
(`SecurityReport.only`).
-/

namespace CodeAudit

open Vulnerability

/-! ## 1. One check -/

/-- Each line has a number of its own. -/
theorem Snippet.pairwise_lines (s : Snippet) : s.lines.Pairwise fun a b => a.1 ≠ b.1 := by
  have hindices : ((Text.lines s.source).zipIdx.map Prod.snd).Nodup := by
    rw [List.zipIdx_map_snd]
    exact List.nodup_range'
  refine List.pairwise_map.mpr ((List.pairwise_map.mp hindices).imp ?_)
  intro a b hne heq
  exact hne (Nat.succ.inj heq)

/-- The rules for ciphers are not merged, and report a line once all the same. -/
theorem Security.nodup_weakCrypto (dialect : Dialect) (s : Snippet) :
    ((weakCrypto dialect s).map place).Nodup := by
  refine List.pairwise_map.mpr (s.pairwise_lines.filterMap _ ?_)
  rintro ⟨line, text⟩ ⟨line', text'⟩ hlines v hv w hw hplace
  obtain ⟨-, ⟨⟩⟩ := Option.ite_none_right_eq_some.mp hv
  obtain ⟨-, ⟨⟩⟩ := Option.ite_none_right_eq_some.mp hw
  have hline : line = line' := congrArg Prod.fst hplace
  exact hlines hline

namespace SecurityCheck

variable {support : Support} {s : Snippet}

theorem kind_injective : Function.Injective kind := by
  intro c d h
  cases c <;> cases d <;> first | rfl | cases h

theorem nodup_all : all.Nodup := by decide

/-- **A check finds at most one thing of its kind in a line.** -/
theorem nodup_run (c : SecurityCheck) : ((c.run support s).map place).Nodup := by
  cases c with
  | sqlInjection => exact nodup_mergeByLine _
  | scriptInjection =>
    simp only [run]
    split
    · exact nodup_mergeByLine _
    · exact List.nodup_nil
  | commandInjection => exact nodup_mergeByLine _
  | weakCrypto => exact Security.nodup_weakCrypto _ _
  | secrets => exact nodup_mergeByLine _

theorem kind_of_mem_places {c : SecurityCheck} {p : Nat × FindingKind}
    (h : p ∈ (c.run support s).map place) : p.2 = c.kind := by
  obtain ⟨v, hv, rfl⟩ := List.mem_map.mp h
  exact (isReport_of_mem_run hv).kind_eq

/-- No two results of all checks are of one kind in one line. -/
theorem nodup_flatMap_run :
    ((all.flatMap fun c => c.run support s).map place).Nodup := by
  rw [List.map_flatMap, List.nodup_flatMap]
  refine ⟨fun c _ => c.nodup_run, nodup_all.imp ?_⟩
  intro c d hne p hc hd
  have hkind : c.kind = d.kind := (kind_of_mem_places hc).symm.trans (kind_of_mem_places hd)
  exact hne (kind_injective hkind)

end SecurityCheck

/-! ## 2. The battery -/

/-- **The last merge drops nothing.** -/
theorem Battery.vulnerabilities_perm (support : Support) (s : Snippet) :
    (Battery.security support s).vulnerabilities.Perm
      (SecurityCheck.all.flatMap fun c => c.run support s) :=
  mergeByLine_perm SecurityCheck.nodup_flatMap_run

/-! ## 3. Reports -/

/-- The part of a report with one severity, scored anew. -/
def SecurityReport.only (severity : Severity) (r : SecurityReport) : SecurityReport :=
  let kept := r.vulnerabilities.filter (·.severity == severity)
  { r with
    vulnerabilities := kept
    findings := kept.map Vulnerability.toFinding
    riskScore := CodeAudit.riskScore kept }

namespace Engine

theorem vulnerabilities_reportOf_all (scan : SecurityScan) (nodes : Nat) :
    (reportOf .all scan nodes).vulnerabilities = scan.vulnerabilities :=
  List.filter_eq_self.mpr fun _ _ => rfl

theorem reportOf_only (severity : Severity) (scan : SecurityScan) (nodes : Nat) :
    reportOf (.only severity) scan nodes = (reportOf .all scan nodes).only severity := by
  have hkept : (fun v : Vulnerability => (SeverityFilter.only severity).keeps v.severity) =
      fun v => v.severity == severity := by
    funext v
    exact BEq.comm
  simp only [reportOf, SecurityReport.only, hkept]
  simp [SeverityFilter.keeps]

/-- What a request for security is answered with: a refusal that no filter changes, or the part of
one scan that the filter keeps. -/
theorem analyzeSecurity_cases (e : Engine) (parse : Parser) (withdrawn : Bool)
    (source language : String) :
    (∃ cause, ∀ filter, e.analyzeSecurity parse withdrawn source language filter = .error cause) ∨
    ∃ support s nodes, Support.ofName language = .ok support ∧
      support.snippet parse source.toList (support.languageName language) e.settings.detectors =
        (s, nodes) ∧
      ∀ filter, e.analyzeSecurity parse withdrawn source language filter =
        .ok (reportOf filter (Battery.security support s) nodes) := by
  unfold analyzeSecurity
  cases hsupport : Support.ofName language with
  | error cause => exact .inl ⟨cause, fun filter => rfl⟩
  | ok support =>
    by_cases hwithdrawn : (support.hasGrammar && withdrawn) = true
    · exact .inl ⟨.cancelled, fun filter => if_pos hwithdrawn⟩
    · exact .inr ⟨support, _, _, rfl, rfl, fun filter => if_neg hwithdrawn⟩

/-- **A report of security loses nothing and repeats nothing.**  A scan has what the five checks
find, each once, at most one of a kind in a line, sorted by line and column.  A request for all
severities reports that scan, a request for one severity reports the part with it, with the same
middleware and number of nodes; and the findings of every report are those made from its
vulnerabilities, none of them safe to be fixed. -/
theorem security_report_complete (support : Support) (s : Snippet) (e : Engine) (parse : Parser)
    (withdrawn : Bool) (source language : String) :
    ((Battery.security support s).vulnerabilities.Perm
        (SecurityCheck.all.flatMap fun c => c.run support s) ∧
      ((Battery.security support s).vulnerabilities.Pairwise fun v w =>
        ¬ (v.line = w.line ∧ v.kind = w.kind)) ∧
      (Battery.security support s).vulnerabilities.Pairwise fun v w => v.rank ≤ w.rank) ∧
    (∀ report, e.analyzeSecurity parse withdrawn source language .all = .ok report →
      ∃ support s nodes, Support.ofName language = .ok support ∧
        support.snippet parse source.toList (support.languageName language) e.settings.detectors =
          (s, nodes) ∧
        report.vulnerabilities = (Battery.security support s).vulnerabilities ∧
        report.middleware = (Battery.security support s).middleware ∧ report.nodes = nodes) ∧
    (∀ severity, e.analyzeSecurity parse withdrawn source language (.only severity) =
      (e.analyzeSecurity parse withdrawn source language .all).map (SecurityReport.only severity)) ∧
    ∀ filter report, e.analyzeSecurity parse withdrawn source language filter = .ok report →
      report.findings = report.vulnerabilities.map Vulnerability.toFinding ∧
        ∀ f ∈ report.findings, f.autoFixSafe = false := by
  refine ⟨⟨Battery.vulnerabilities_perm support s, ?_, pairwise_mergeByLine _⟩, ?_⟩
  · refine (List.pairwise_map.mp (nodup_mergeByLine _)).imp ?_
    rintro v w hne ⟨hline, hkind⟩
    exact hne (Prod.ext hline hkind)
  rcases e.analyzeSecurity_cases parse withdrawn source language with
    ⟨cause, h⟩ | ⟨support, s, nodes, hsupport, hsnippet, h⟩
  · simp [h, Except.map]
  · refine ⟨?_, ?_, ?_⟩
    · intro report hreport
      obtain rfl := Except.ok.inj ((h .all).symm.trans hreport)
      exact ⟨support, s, nodes, hsupport, hsnippet, vulnerabilities_reportOf_all _ _, rfl, rfl⟩
    · intro severity
      rw [h, h, reportOf_only]
      rfl
    · intro filter report hreport
      obtain rfl := Except.ok.inj ((h filter).symm.trans hreport)
      refine ⟨rfl, ?_⟩
      intro f hf
      obtain ⟨v, -, rfl⟩ := List.mem_map.mp hf
      rfl

/-- A text with a weak hash in two lines, in one of them beside a secret. -/
def leakySource : String := "h := md5.Sum(x)\nh += \"sk_live_abcdefghijkl\" + md5.Sum(x)"

def leakySnippet : Snippet := ⟨leakySource.toList, none, "ruby", {}⟩

/-- All three are reported, and none of them is safe to be fixed. -/
theorem leaky_report_complete :
    ∃ report, (Engine.new {}).analyzeSecurity (fun _ _ => default) false leakySource "ruby" .all =
        .ok report ∧
      (report.vulnerabilities.map fun v => (v.line, v.kind, v.severity)).Perm
        [(1, .insecureCrypto, .high), (2, .insecureCrypto, .high),
          (2, .hardcodedSecret, .critical)] ∧
      (Engine.new {}).analyzeSecurity (fun _ _ => default) false leakySource "ruby" (.only .high) =
        .ok (report.only .high) ∧
      ∀ f ∈ report.findings, f.autoFixSafe = false := by
  obtain ⟨⟨hperm, -, -⟩, -, honly, hfindings⟩ := security_report_complete .plainText leakySnippet
    (Engine.new {}) (fun _ _ => default) false leakySource "ruby"
  have hreport : (Engine.new {}).analyzeSecurity (fun _ _ => default) false leakySource "ruby"
      .all = .ok (reportOf .all (Battery.security .plainText leakySnippet) 0) := by
    rfl
  have hfound : (SecurityCheck.all.flatMap fun c => c.run .plainText leakySnippet).map
      (fun v => (v.line, v.kind, v.severity)) =
      [(1, .insecureCrypto, .high), (2, .insecureCrypto, .high),
        (2, .hardcodedSecret, .critical)] := by
    decide +kernel
  refine ⟨_, hreport, ?_, ?_, (hfindings .all _ hreport).2⟩
  · rw [← hfound, vulnerabilities_reportOf_all]
    exact hperm.map _
  · rw [honly, hreport]
    rfl

end Engine

end CodeAudit
