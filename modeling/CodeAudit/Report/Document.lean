import CodeAudit.Report.Data
import CodeAudit.Report.Pretty

/-!
# Reports for programs

The same reports as JSON documents, under the version of the program, the path and the language.
-/

namespace CodeAudit

/-- The form a report is printed in. -/
inductive OutputFormat where
  | pretty
  | json
  deriving DecidableEq, Repr, Inhabited

namespace OutputFormat

def name : OutputFormat → String
  | .pretty => "pretty"
  | .json => "json"

/-- The format with a name, in any letter case. -/
def ofName? (s : String) : Option OutputFormat :=
  match Text.lowerString s with
  | "pretty" | "text" => some .pretty
  | "json" => some .json
  | _ => none

end OutputFormat

namespace Document

/-- A document: its head, then the fields of a report. -/
def envelope (path language : String) (fields : List (String × Json)) : String :=
  Json.pretty (.object ([("version", .string toolVersion), ("path", .string path),
    ("language", .string language)] ++ fields)) ++ "\n"

def statistics (t : Timing) (nodes : Nat) : Json :=
  .object [("parse_time_ms", .natural t.parseMs), ("analysis_time_ms", .natural t.analysisMs),
    ("nodes_visited", .natural nodes)]

def quality (path language : String) (t : Timing) (r : QualityReport) : String :=
  envelope path language <|
    [("findings", .list (r.findings.map Finding.toJson)), ("stats", statistics t r.nodes)] ++
    (r.validation.toList.map fun v => ("validation", v.toJson)) ++
    (r.riskMarkers.toList.map fun m => ("edge_cases", m.toJson))

def security (path language : String) (t : Timing) (r : SecurityReport) : String :=
  envelope path language
    [("vulnerabilities", .list (r.vulnerabilities.map Vulnerability.toJson)),
      ("findings", .list (r.findings.map Finding.toJson)), ("stats", statistics t r.nodes),
      ("risk_score", .number r.riskScore), ("middleware", .list (r.middleware.map Finding.toJson))]

def functions (path language : String) (fs : List Function) : String :=
  envelope path language [("functions", .list (fs.map Function.toJson))]

end Document

end CodeAudit
