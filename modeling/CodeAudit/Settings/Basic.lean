import CodeAudit.Decimal.Style
import CodeAudit.Glob
import CodeAudit.Json
import CodeAudit.Text.Quoted

/-!
# Settings

Every number that steers the analysis, with a built-in value: lifetimes of caches, limits of
validation, penalties, base confidences, and the confidence each detector reports at.

`Settings.check` refuses values that make no sense, and names the first of them.
-/

namespace CodeAudit

/-- Lifetimes and size of the result cache, in seconds and entries. -/
structure CacheSettings where
  ttlSecs : Nat := 300
  sweepIntervalSecs : Nat := 300
  maxEntries : Nat := 1000
  deriving DecidableEq, Repr, Inhabited

/-- Limits of validation against the project. -/
structure ValidationSettings where
  maxConcurrency : Nat := 8
  timeoutMs : Nat := 5000
  /-- Names of directories that are never entered. -/
  excludedDirs : List String :=
    [".git", "node_modules", "vendor", "testdata", ".cursor", "target", "dist", "build"]
  /-- Globs of paths that are not searched. -/
  excludedPaths : List String := []
  /-- Lifetime of a cached search; zero keeps none. -/
  searchCacheTtlSecs : Nat := 300
  deriving DecidableEq, Repr, Inhabited

/-- What each risk marker takes off a confidence. -/
structure Penalties where
  reflection : Float := 0.30
  dynamicImport : Float := 0.20
  plugin : Float := 0.25
  /-- For generated files; takes the place of all others. -/
  generated : Float := 1.0
  deriving Inhabited

/-- Base confidences of validated findings, and the least one that is fixed without a human. -/
structure Confidences where
  autoFixThreshold : Float := 0.95
  orphaned : Float := 0.95
  unused : Float := 0.95
  emptyCatch : Float := 0.85
  duplicate : Float := 0.80
  other : Float := 0.50
  deriving Inhabited

/-- Confidence each security detector reports at. -/
structure DetectorScores where
  sqlConcat : Float := 0.9
  sqlQueryVar : Float := 0.85
  sqlAssignment : Float := 0.88
  xssDom : Float := 0.9
  xssTemplate : Float := 0.85
  commandTree : Float := 0.9
  commandText : Float := 0.85
  secretAssignment : Float := 0.8
  middleware : Float := 0.85
  middlewareGeneric : Float := 0.75
  deriving Inhabited

structure Settings where
  cache : CacheSettings := {}
  validation : ValidationSettings := {}
  penalties : Penalties := {}
  confidence : Confidences := {}
  detectors : DetectorScores := {}
  deriving Inhabited

/-! ## 1. What is refused -/

inductive SettingsError where
  | outOfRange (field : String) (value : Float)
  | zero (field : String)
  | glob (pattern : String) (error : GlobError)

def SettingsError.message : SettingsError → String
  | .outOfRange field value => s!"{field} must be within [0, 1], got " ++ Decimal.text .message value
  | .zero field => s!"{field} must be at least 1"
  | .glob pattern error =>
    "invalid excluded_paths pattern " ++ Text.quoted pattern ++ ": " ++ error.message pattern

namespace Settings

/-- The values that have to lie between zero and one, with the names they go by. -/
def unitValues (s : Settings) : List (String × Float) :=
  [("penalties.reflection", s.penalties.reflection),
    ("penalties.dynamic_import", s.penalties.dynamicImport),
    ("penalties.plugin", s.penalties.plugin),
    ("penalties.generated", s.penalties.generated),
    ("confidence.auto_fix_threshold", s.confidence.autoFixThreshold),
    ("confidence.orphaned", s.confidence.orphaned),
    ("confidence.unused", s.confidence.unused),
    ("confidence.empty_catch", s.confidence.emptyCatch),
    ("confidence.duplicate", s.confidence.duplicate),
    ("confidence.default", s.confidence.other),
    ("detectors.sql_concat", s.detectors.sqlConcat),
    ("detectors.sql_query_var", s.detectors.sqlQueryVar),
    ("detectors.sql_assignment", s.detectors.sqlAssignment),
    ("detectors.xss_dom", s.detectors.xssDom),
    ("detectors.xss_template", s.detectors.xssTemplate),
    ("detectors.command_tree", s.detectors.commandTree),
    ("detectors.command_text", s.detectors.commandText),
    ("detectors.secret_assignment", s.detectors.secretAssignment),
    ("detectors.middleware", s.detectors.middleware),
    ("detectors.middleware_generic", s.detectors.middlewareGeneric)]

/-- Whether a number lies between zero and one; a number that is none does not. -/
def isUnit (x : Float) : Bool := 0.0 ≤ x && x ≤ 1.0

/-- The first thing that is wrong with a list of globs. -/
def checkGlobs : List String → Except SettingsError Unit
  | [] => .ok ()
  | pattern :: rest =>
    match Glob.parse pattern with
    | .error e => .error (.glob pattern e)
    | .ok _ => checkGlobs rest

/-- Accepts settings, or says what is wrong first: values out of range, then limits of zero, then
globs. -/
def check (s : Settings) : Except SettingsError Unit :=
  match s.unitValues.find? fun (_, x) => !isUnit x with
  | some (field, value) => .error (.outOfRange field value)
  | none =>
    if s.validation.maxConcurrency = 0 then .error (.zero "validation.max_concurrency")
    else if s.cache.maxEntries = 0 then .error (.zero "cache.max_entries")
    else checkGlobs s.validation.excludedPaths

end Settings

/-! ## 2. Which paths a search leaves out -/

/-- Directories and globs that a search leaves out. -/
structure PathFilter where
  excludedDirs : List String
  globs : List Glob
  deriving Inhabited

/-- A glob that cannot be read excludes nothing. -/
def ValidationSettings.pathFilter (v : ValidationSettings) : PathFilter :=
  ⟨v.excludedDirs, v.excludedPaths.filterMap fun p => (Glob.parse p).toOption⟩

namespace PathFilter

/-- Whether a directory of this name is never entered. -/
def skipsDirectory (f : PathFilter) (name : String) : Bool := f.excludedDirs.contains name

/-- Whether a path, relative to the top of the project, is left out. -/
def excludes (f : PathFilter) (path : String) : Bool := f.globs.any (·.accepts path)

end PathFilter

end CodeAudit
