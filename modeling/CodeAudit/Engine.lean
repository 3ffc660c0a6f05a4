import CodeAudit.Analysis.Battery
import CodeAudit.Cache.Result
import CodeAudit.Function.Listing
import CodeAudit.Validation.Batch

/-!
# The engine

The three requests: quality, security and the list of functions; and quality followed by
validation against a project.  An engine has settings and a validator of its own; the cache of
results can be shared by many engines, so it is passed in and handed back.

Making a tree from a source is the work of a `Parser`, which is given.  All that is asked of it is
that it is a function of grammar and source.
-/

namespace CodeAudit

/-- Makes the tree of a source. -/
abbrev Parser := Language → List Char → Tree

/-- Why a request ends without a report. -/
inductive Fault where
  | refused (cause : AnalysisError)
  /-- The result could not be cached: its expiry lies beyond the range of the clock. -/
  | clockOverflow
  deriving DecidableEq, Repr

def Fault.message : Fault → String
  | .refused cause => cause.message
  | .clockOverflow => "overflow when adding duration to instant"

/-- What a request for quality is answered with. -/
structure QualityReport where
  findings : List Finding
  nodes : Nat
  validation : Option ValidationSummary := none
  riskMarkers : Option RiskMarkers := none
  deriving Inhabited

/-- What a request for security is answered with. -/
structure SecurityReport where
  vulnerabilities : List Vulnerability
  findings : List Finding
  middleware : List Finding
  nodes : Nat
  riskScore : Float
  deriving Inhabited

/-- Which vulnerabilities a report keeps. -/
inductive SeverityFilter where
  | all
  | only (severity : Severity)
  deriving DecidableEq, Repr, Inhabited

namespace SeverityFilter

def keeps (filter : SeverityFilter) (s : Severity) : Bool :=
  match filter with
  | .all => true
  | .only wanted => wanted == s

/-- The filter with a name; `none` if it names neither all nor a severity. -/
def ofName? (s : String) : Option SeverityFilter :=
  if s.toList.map Char.toLower == "all".toList then some .all else (Severity.ofName? s).map .only

end SeverityFilter

/-- The snippet that detectors look at, and its number of nodes. -/
def Support.snippet (support : Support) (parse : Parser) (source : List Char) (language : String)
    (scores : DetectorScores) : Snippet × Nat :=
  match support with
  | .plainText => (⟨source, none, language, scores⟩, 0)
  | .grammar l =>
    let tree := parse l source
    (⟨source, some tree, language, scores⟩, tree.size)

/-- An engine: its settings and its validator. -/
structure Engine where
  settings : Settings
  validator : Validator

namespace Engine

def new (s : Settings) : Engine := ⟨s, .new s.validation s.confidence⟩

/-! ## 1. Quality -/

/-- A request for quality, as it was made. -/
structure QualityRequest where
  source : String
  language : String
  selectors : List String

/-- A request that is understood: how its source is read, what the language is called, and which
checks run. -/
structure QualityTask where
  support : Support
  language : String
  selectors : SelectorSet
  source : String

/-- Reads a request: selectors first, then the language. -/
def QualityRequest.task (r : QualityRequest) : Except AnalysisError QualityTask :=
  match SelectorSet.parse r.selectors with
  | .error name => .error (.unknownSelector name)
  | .ok selectors =>
    (Support.ofName r.language).map fun support =>
      ⟨support, support.languageName r.language, selectors, r.source⟩

/-- What the result of a task is cached under. -/
def QualityTask.key (t : QualityTask) : String := ResultCache.key t.source t.language t.selectors.names

/-- Carries out a task. -/
def QualityTask.run (t : QualityTask) (parse : Parser) (scores : DetectorScores) : CachedResult :=
  let (snippet, nodes) := t.support.snippet parse t.source.toList t.language scores
  ⟨Battery.quality t.support t.selectors snippet, nodes⟩

/-- Answers a request for quality, from the cache if it has the result. -/
def analyze (e : Engine) (parse : Parser) (r : QualityRequest) (now : Instant) (cache : ResultCache) :
    Except Fault QualityReport × ResultCache :=
  match r.task with
  | .error cause => (.error (.refused cause), cache)
  | .ok task =>
    match cache.get task.key now with
    | (some result, cache) => (.ok { findings := result.findings, nodes := result.nodes }, cache)
    | (none, cache) =>
      let result := task.run parse e.settings.detectors
      match cache.put task.key result e.settings.cache.ttlSecs now with
      | (true, cache) => (.ok { findings := result.findings, nodes := result.nodes }, cache)
      | (false, cache) => (.error .clockOverflow, cache)

/-- Completes a report by what validation came to and by the risk markers of the source. -/
def complete (e : Engine) (report : QualityReport) (validated : List Finding × ValidationSummary)
    (markers : RiskMarkers) : QualityReport :=
  { report with
    findings := validated.1.map (Finding.penalize e.settings.confidence markers)
    validation := some validated.2
    riskMarkers := some markers }

/-- Answers a request for quality and validates the findings against a project. -/
def analyzeInProject (e : Engine) (parse : Parser) (d : Disk) (file root : Path) (r : QualityRequest)
    (now : Instant) (cache : ResultCache) : Except Fault QualityReport × Engine × ResultCache :=
  match e.analyze parse r now cache with
  | (.error fault, cache) => (.error fault, e, cache)
  | (.ok report, cache) =>
    let (validated, validator) :=
      e.validator.validate d report.findings file root r.language fun _ _ => now
    let markers := RiskMarkers.ofSource e.settings.penalties r.source.toList r.language
    (.ok (e.complete report validated markers), { e with validator }, cache)

/-! ## 2. Security -/

/-- The part of a scan that a filter keeps, with its score. -/
def reportOf (filter : SeverityFilter) (scan : SecurityScan) (nodes : Nat) : SecurityReport :=
  let kept := scan.vulnerabilities.filter fun v => filter.keeps v.severity
  { vulnerabilities := kept
    findings := kept.map Vulnerability.toFinding
    middleware := scan.middleware
    nodes
    riskScore := riskScore kept }

/-- Answers a request for security.  A request that is `withdrawn` gets no tree; without a grammar
it needs none. -/
def analyzeSecurity (e : Engine) (parse : Parser) (withdrawn : Bool) (source language : String)
    (filter : SeverityFilter) : Except AnalysisError SecurityReport :=
  (Support.ofName language).bind fun support =>
    if support.hasGrammar && withdrawn then .error .cancelled
    else
      let (snippet, nodes) :=
        support.snippet parse source.toList (support.languageName language) e.settings.detectors
      .ok (reportOf filter (Battery.security support snippet) nodes)

/-! ## 3. Functions -/

/-- The grammar for a language asked for by name. -/
def grammarOf (language : String) : Except AnalysisError Language :=
  (Support.ofName language).bind fun support =>
    match support with
    | .grammar l => .ok l
    | .plainText => .error .parserUnavailable

/-- Lists the functions of a source whose names have a keyword in them. -/
def functions (parse : Parser) (source language : String) (keyword : Option String) :
    Except AnalysisError (List Function) :=
  (grammarOf language).map fun l => Function.search l source.toList (parse l source.toList) keyword

/-- The first function with exactly a name. -/
def functionNamed (parse : Parser) (source language name : String) :
    Except AnalysisError (Option Function) :=
  (grammarOf language).map fun l => Function.named? l source.toList (parse l source.toList) name

end Engine

end CodeAudit
