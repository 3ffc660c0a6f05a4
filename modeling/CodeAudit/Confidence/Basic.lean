import CodeAudit.Confidence.RiskMarker
import CodeAudit.Finding.Basic

/-!
# Confidence

Two passes set the confidence of a finding.  Validation gives it a base confidence that depends on
what was learned about the project; risk markers then take off a penalty.  Each pass decides anew
whether the finding may be fixed without a human, and keeps the reasoning in step: **a validated
finding's reasoning ends by stating its confidence**, so a penalty rewrites that ending.
-/

namespace CodeAudit

/-- What validation learned about one finding. -/
structure Evidence where
  /-- Whether other files refer to the name. -/
  foundInCodebase : Bool := false
  /-- How many lines of other files do. -/
  referenceCount : Nat := 0
  /-- Whether a comment nearby says that the code is meant. -/
  hasIntent : Bool := false
  /-- Whether the name can be used from outside. -/
  isExported : Bool := false
  details : String := ""
  deriving DecidableEq, Repr, Inhabited

namespace Confidence

/-! ## 1. The base -/

/-- Base confidence of a kind of finding, given what validation learned. -/
def base (c : Confidences) (kind : FindingKind) (e : Evidence) : Float :=
  match kind with
  | .orphanedCode => if e.foundInCodebase || e.isExported then 0.0 else c.orphaned
  | .unusedVariable => if e.foundInCodebase || e.isExported then 0.0 else c.unused
  | .emptyCatch => if e.hasIntent then 0.0 else c.emptyCatch
  | .duplicateFunction => c.duplicate
  | _ => c.other

/-- Whether a finding may be fixed without a human.  Duplicates and security findings never. -/
def isSafe (c : Confidences) (kind : FindingKind) (confidence : Float) : Bool :=
  kind != .duplicateFunction && !kind.isSecurity && c.autoFixThreshold ≤ confidence

/-! ## 2. The reasoning -/

/-- What validation found, in sentences without their full stops. -/
def grounds (kind : FindingKind) (e : Evidence) : List String :=
  match kind with
  | .orphanedCode =>
    if e.foundInCodebase then
      [s!"Function is referenced {e.referenceCount} times in other files", "Not safe to remove"]
    else if e.isExported then ["Function is exported (public API)", "May be used by external code"]
    else ["No references found in codebase", "High confidence function is orphaned"]
  | .unusedVariable =>
    if e.isExported then ["Variable is exported (public API)", "May be used by external code"]
    else if e.foundInCodebase then
      [s!"Variable referenced {e.referenceCount} times in other files",
        "May be used via reflection or other mechanisms"]
    else ["Variable is local scope only", "No external references found"]
  | .emptyCatch =>
    if e.hasIntent then
      ["Intent comment (TODO/FIXME) found nearby", "Empty catch block may be intentional"]
    else ["No intent comments found", "Empty catch block likely unintentional"]
  | _ => ["Standard validation applied"]

/-- How a reasoning begins that states a confidence. -/
def statusMark : String := "Confidence: "

/-- The ending of a reasoning: the confidence in per cent, and whether a human has to look. -/
def status (confidence : Float) (safe : Bool) : String :=
  statusMark ++ Decimal.fixed 0 (confidence * 100.0) ++ "%. " ++
    (if safe then "Safe for automated refactoring" else "Requires human review")

def reasoning (kind : FindingKind) (e : Evidence) (confidence : Float) (safe : Bool) : String :=
  String.intercalate ". " (grounds kind e ++ [status confidence safe])

end Confidence

namespace Finding

/-! ## 3. The two passes -/

/-- Scores a finding by what validation learned about it. -/
def rescore (c : Confidences) (e : Evidence) (f : Finding) : Finding :=
  let confidence := Confidence.base c f.kind e
  let safe := Confidence.isSafe c f.kind confidence
  { f with
    confidence
    fixType := f.kind.fixType
    autoFixSafe := safe
    reasoning := Confidence.reasoning f.kind e confidence safe
    validated := true }

/-- Puts the current confidence into a reasoning that states one; any other is left alone. -/
def restate (reasoning : String) (confidence : Float) (safe : Bool) : String :=
  match Text.beforeLastWord? Confidence.statusMark reasoning.toList with
  | none => reasoning
  | some before => String.ofList before ++ Confidence.status confidence safe

/-- Puts a sentence in front of a reasoning. -/
def precede (cause : Option String) (reasoning : String) : String :=
  match cause with
  | none => reasoning
  | some cause => if reasoning.isEmpty then cause else cause ++ ". " ++ reasoning

/-- Takes the penalty of risk markers off a finding. -/
def penalize (c : Confidences) (m : RiskMarkers) (f : Finding) : Finding :=
  let confidence := clampUnit (f.confidence - m.penalty)
  let safe := Confidence.isSafe c f.kind confidence
  { f with
    confidence
    autoFixSafe := safe
    reasoning :=
      if m.penalty ≤ 0.0 then f.reasoning
      else precede m.cause? (if f.validated then restate f.reasoning confidence safe else f.reasoning) }

end Finding

end CodeAudit
