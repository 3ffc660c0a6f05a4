import CodeAudit.Function.Basic
import CodeAudit.Finding.Vulnerability
import CodeAudit.Json
import CodeAudit.Validation.Batch

/-!
# Records as JSON

The fields of each record, in the order in which they are written.
-/

namespace CodeAudit

/-- The four numbers of a span. -/
def Span.fields (s : Span) : List (String × Json) :=
  [("line", .natural s.line), ("column", .natural s.column), ("end_line", .natural s.endLine),
    ("end_column", .natural s.endColumn)]

def Finding.toJson (f : Finding) : Json :=
  .object <|
    [("kind", .string f.kind.name), ("severity", .string f.severity.name)] ++ f.span.fields ++
    [("message", .string f.message), ("code", .string f.code), ("suggestion", .string f.suggestion),
      ("confidence", .number f.confidence), ("auto_fix_safe", .bool f.autoFixSafe),
      ("fix_type", .string f.fixType.name), ("reasoning", .string f.reasoning),
      ("validated", .bool f.validated)]

def Vulnerability.toJson (v : Vulnerability) : Json :=
  .object <|
    [("kind", .string v.kind.name), ("severity", .string v.severity.name)] ++ v.span.fields ++
    [("message", .string v.message), ("code", .string v.code),
      ("description", .string v.description), ("remediation", .string v.remediation),
      ("confidence", .number v.confidence)]

/-- A result that is not declared, a missing documentation and an empty list of facts are left
out. -/
def Function.toJson (f : Function) : Json :=
  .object <|
    [("name", .string (String.ofList f.name)), ("language", .string f.language.name)] ++ f.span.fields ++
    [("parameters", .list (f.parameters.map .string))] ++
    (f.returnType.toList.map fun r => ("return_type", .string r)) ++
    [("visibility", .string f.visibility.name)] ++
    (if f.documentation.isEmpty then [] else [("documentation", .string f.documentation)]) ++
    [("code", .string f.code)] ++
    (if f.metadata.isEmpty then []
      else [("metadata", .object (f.metadata.map fun (k, v) => (k, .string v)))])

def RiskMarkers.toJson (m : RiskMarkers) : Json :=
  .object [("has_reflection", .bool m.reflection), ("has_dynamic_import", .bool m.dynamicImport),
    ("has_plugin_usage", .bool m.plugin), ("has_generated_code", .bool m.generated),
    ("penalty", .number m.penalty), ("patterns", .list (m.patterns.map .string))]

def ValidationSummary.toJson (s : ValidationSummary) : Json :=
  .object [("validated", .natural s.validated), ("failed", .natural s.failed),
    ("timed_out", .natural s.timedOut), ("skipped", .natural s.skipped)]

def CacheSettings.toJson (c : CacheSettings) : Json :=
  .object [("ttl_secs", .natural c.ttlSecs), ("sweep_interval_secs", .natural c.sweepIntervalSecs),
    ("max_entries", .natural c.maxEntries)]

def ValidationSettings.toJson (v : ValidationSettings) : Json :=
  .object [("max_concurrency", .natural v.maxConcurrency), ("timeout_ms", .natural v.timeoutMs),
    ("excluded_dirs", .list (v.excludedDirs.map .string)),
    ("excluded_paths", .list (v.excludedPaths.map .string)),
    ("search_cache_ttl_secs", .natural v.searchCacheTtlSecs)]

def Penalties.toJson (p : Penalties) : Json :=
  .object [("reflection", .number p.reflection), ("dynamic_import", .number p.dynamicImport),
    ("plugin", .number p.plugin), ("generated", .number p.generated)]

def Confidences.toJson (c : Confidences) : Json :=
  .object [("auto_fix_threshold", .number c.autoFixThreshold), ("orphaned", .number c.orphaned),
    ("unused", .number c.unused), ("empty_catch", .number c.emptyCatch),
    ("duplicate", .number c.duplicate), ("default", .number c.other)]

def DetectorScores.toJson (d : DetectorScores) : Json :=
  .object [("sql_concat", .number d.sqlConcat), ("sql_query_var", .number d.sqlQueryVar),
    ("sql_assignment", .number d.sqlAssignment), ("xss_dom", .number d.xssDom),
    ("xss_template", .number d.xssTemplate), ("command_tree", .number d.commandTree),
    ("command_text", .number d.commandText), ("secret_assignment", .number d.secretAssignment),
    ("middleware", .number d.middleware), ("middleware_generic", .number d.middlewareGeneric)]

def Settings.toJson (s : Settings) : Json :=
  .object [("cache", s.cache.toJson), ("validation", s.validation.toJson),
    ("penalties", s.penalties.toJson), ("confidence", s.confidence.toJson),
    ("detectors", s.detectors.toJson)]

end CodeAudit
