import CodeAudit.Engine
import CodeAudit.Report.Paint

/-!
# Reports for people

The layout of the three reports on a terminal.  Every line ends in a line feed; fields that stand
in columns are padded before they are coloured.
-/

namespace CodeAudit

/-- The name of the program, as it prints it. -/
def toolName : String := "astguard"

def toolVersion : String := "0.1.0"

/-- How long the two parts of an analysis took, in milliseconds. -/
structure Timing where
  parseMs : Nat := 0
  analysisMs : Nat := 0
  deriving DecidableEq, Repr, Inhabited

namespace Pretty

/-- Fills up a piece with blanks to a width. -/
def pad (width : Nat) (s : String) : String :=
  s ++ String.ofList (List.replicate (width - s.length) ' ')

section Layout

variable (colors : Bool)

/-! ## 1. Pieces -/

def header (path language : String) : String :=
  "\n  " ++ Paint.boldCyan.apply colors toolName ++ " v" ++ toolVersion ++ "\n\n  " ++
    Paint.dimmed.apply colors "Analyzing: " ++ path ++ "\n  " ++
    Paint.dimmed.apply colors "Language:  " ++ language ++ "\n\n"

def severityTag : Severity → String
  | .critical => Paint.boldRed.apply colors "CRIT "
  | .high | .error => Paint.red.apply colors "HIGH "
  | .medium | .warning => Paint.yellow.apply colors "WARN "
  | .low => Paint.blue.apply colors "LOW  "
  | .info => Paint.blue.apply colors "INFO "

def finding (path : String) (f : Finding) : String :=
  "    " ++ severityTag colors f.severity ++ "    " ++
    Paint.dimmed.apply colors (pad 20 f.kind.name) ++ Paint.blue.apply colors path ++
    Paint.dimmed.apply colors s!":{f.line}:{f.column}" ++ "  " ++
    Paint.dimmed.apply colors (Decimal.fixed 0 (f.confidence * 100.0) ++ "%") ++
    (if f.autoFixSafe then " " ++ Paint.green.apply colors "auto-fix" else "") ++ "\n            " ++
    f.message ++ "\n" ++
    (if f.suggestion.isEmpty then ""
      else "            " ++ Paint.dimmed.apply colors f.suggestion ++ "\n") ++ "\n"

def findingList (title path : String) (fs : List Finding) : String :=
  "  " ++ Paint.bold.apply colors title ++ s!" ({fs.length}):\n\n" ++
    String.join (fs.map (finding colors path))

def statistics (t : Timing) (nodes : Nat) : String :=
  "  " ++ Paint.dimmed.apply colors s!"parse {t.parseMs}ms  analysis {t.analysisMs}ms  nodes {nodes}" ++
    "\n\n"

/-- A risk score in the colour of its level. -/
def risk (score : Float) : String :=
  let level := RiskLevel.ofScore score
  let paint := match level with
    | .none => Paint.boldGreen
    | .low => Paint.green
    | .medium => Paint.yellow
    | .high => Paint.boldYellow
    | .critical => Paint.red
  paint.apply colors (Decimal.fixed 1 score ++ s!" ({level.name})")

def middleware (path : String) (fs : List Finding) : String :=
  if fs.isEmpty then ""
  else
    "  " ++ Paint.bold.apply colors "Security middleware" ++ s!" ({fs.length}):\n" ++
      String.join (fs.map fun f =>
        "    " ++ Paint.dimmed.apply colors (pad 22 f.kind.name) ++
          Paint.blue.apply colors s!"{path}:{f.line}" ++ "\n") ++ "\n"

def validationLine (v : ValidationSummary) : String :=
  "  " ++ Paint.dimmed.apply colors
    (s!"Validation: {v.validated} validated, {v.failed} failed, {v.timedOut} timed out, " ++
      s!"{v.skipped} skipped") ++ "\n"

def penaltyLine (m : RiskMarkers) : String :=
  if 0.0 < m.penalty then
    "  " ++ Paint.yellow.apply colors ("Confidence penalty: " ++ Decimal.fixed 2 m.penalty ++ " (" ++
      String.intercalate ", " m.patterns ++ ")") ++ "\n"
  else ""

def function (path : String) (f : Function) : String :=
  "    " ++ Paint.cyan.apply colors (String.ofList f.name) ++ "(" ++
    String.intercalate ", " f.parameters ++ ")" ++
    ((f.returnType.map fun r => " " ++ Paint.dimmed.apply colors "->" ++ " " ++ r).getD "") ++
    "\n      " ++ Paint.blue.apply colors s!"{path}:{f.span.line}-{f.span.endLine}" ++ "  " ++
    Paint.dimmed.apply colors f.visibility.name ++ "\n" ++
    (if f.documentation.isEmpty then ""
      else
        let first := ((Text.lines f.documentation.toList).head?).getD []
        "      " ++ Paint.dimmed.apply colors (String.ofList first) ++ "\n")

/-! ## 2. Reports -/

def quality (path language : String) (t : Timing) (r : QualityReport) : String :=
  header colors path language ++
    (if r.findings.isEmpty then "  " ++ Paint.green.apply colors "✓ No findings" ++ "\n"
      else findingList colors "Findings" path r.findings) ++ "\n" ++
    ((r.validation.map (validationLine colors)).getD "") ++
    ((r.riskMarkers.map (penaltyLine colors)).getD "") ++ statistics colors t r.nodes

def security (path language : String) (t : Timing) (r : SecurityReport) : String :=
  header colors path language ++ "  Risk score: " ++ risk colors r.riskScore ++ "\n\n" ++
    (if r.findings.isEmpty then "  " ++ Paint.green.apply colors "✓ No vulnerabilities" ++ "\n"
      else findingList colors "Vulnerabilities" path r.findings) ++ "\n" ++
    middleware colors path r.middleware ++ statistics colors t r.nodes

def functions (path : String) (fs : List Function) : String :=
  "\n  " ++ Paint.bold.apply colors "Functions" ++ s!" ({fs.length}):\n\n" ++
    String.join (fs.map (function colors path)) ++ "\n"

end Layout

end Pretty

end CodeAudit
