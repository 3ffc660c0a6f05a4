import CodeAudit.Disk.Basic
import CodeAudit.Settings.Basic
import CodeAudit.Yaml.Reader

/-!
# Settings files

Settings are kept in a YAML file.  Every section and every value may be missing, and names that
are not known are passed over; **a known name given twice is an error**.  A section can also be
written as a list of its values in their order.
-/

namespace CodeAudit

/-- Why a settings file cannot be used. -/
inductive SettingsFileError where
  | unreadable (cause : FileError)
  /-- It is no YAML, or a value is of the wrong kind. -/
  | malformed
  | rejected (cause : SettingsError)

namespace Yaml

/-! ## 1. Sections -/

/-- The entries of a map whose keys are known names; each name at most once. -/
def knownEntries? (names : List String) : List (Yaml × Yaml) → Option (List (String × Yaml))
  | [] => some []
  | (key, value) :: rest =>
    key.text?.bind fun name =>
      (knownEntries? names rest).bind fun found =>
        if !names.contains name then some found
        else if (found.lookup name).isSome then none
        else some ((name, value) :: found)

/-- The values of a section by their names. -/
def section? (names : List String) : Yaml → Option (List (String × Yaml))
  | .empty => some []
  | .map entries => knownEntries? names entries
  | .list items => if items.length ≤ names.length then some (names.zip items) else none
  | .scalar _ _ => none

/-- A list of texts. -/
def texts? : Yaml → Option (List String)
  | .empty => some []
  | .list items => items.mapM text?
  | _ => none

/-- A value of a section, or its built-in value. -/
def value {α : Type} (found : List (String × Yaml)) (name : String) (read : Yaml → Option α)
    (builtIn : α) : Option α :=
  match found.lookup name with
  | none => some builtIn
  | some y => read y

end Yaml

/-! ## 2. The settings of a document -/

def CacheSettings.ofYaml? (y : Yaml) : Option CacheSettings := do
  let d : CacheSettings := {}
  let found ← y.section? ["ttl_secs", "sweep_interval_secs", "max_entries"]
  return { ttlSecs := ← Yaml.value found "ttl_secs" Yaml.natural? d.ttlSecs
           sweepIntervalSecs := ← Yaml.value found "sweep_interval_secs" Yaml.natural? d.sweepIntervalSecs
           maxEntries := ← Yaml.value found "max_entries" Yaml.natural? d.maxEntries }

def ValidationSettings.ofYaml? (y : Yaml) : Option ValidationSettings := do
  let d : ValidationSettings := {}
  let found ← y.section?
    ["max_concurrency", "timeout_ms", "excluded_dirs", "excluded_paths", "search_cache_ttl_secs"]
  return { maxConcurrency := ← Yaml.value found "max_concurrency" Yaml.natural? d.maxConcurrency
           timeoutMs := ← Yaml.value found "timeout_ms" Yaml.natural? d.timeoutMs
           excludedDirs := ← Yaml.value found "excluded_dirs" Yaml.texts? d.excludedDirs
           excludedPaths := ← Yaml.value found "excluded_paths" Yaml.texts? d.excludedPaths
           searchCacheTtlSecs :=
             ← Yaml.value found "search_cache_ttl_secs" Yaml.natural? d.searchCacheTtlSecs }

def Penalties.ofYaml? (y : Yaml) : Option Penalties := do
  let d : Penalties := {}
  let found ← y.section? ["reflection", "dynamic_import", "plugin", "generated"]
  return { reflection := ← Yaml.value found "reflection" Yaml.number? d.reflection
           dynamicImport := ← Yaml.value found "dynamic_import" Yaml.number? d.dynamicImport
           plugin := ← Yaml.value found "plugin" Yaml.number? d.plugin
           generated := ← Yaml.value found "generated" Yaml.number? d.generated }

def Confidences.ofYaml? (y : Yaml) : Option Confidences := do
  let d : Confidences := {}
  let found ← y.section?
    ["auto_fix_threshold", "orphaned", "unused", "empty_catch", "duplicate", "default"]
  return { autoFixThreshold := ← Yaml.value found "auto_fix_threshold" Yaml.number? d.autoFixThreshold
           orphaned := ← Yaml.value found "orphaned" Yaml.number? d.orphaned
           unused := ← Yaml.value found "unused" Yaml.number? d.unused
           emptyCatch := ← Yaml.value found "empty_catch" Yaml.number? d.emptyCatch
           duplicate := ← Yaml.value found "duplicate" Yaml.number? d.duplicate
           other := ← Yaml.value found "default" Yaml.number? d.other }

def DetectorScores.ofYaml? (y : Yaml) : Option DetectorScores := do
  let d : DetectorScores := {}
  let found ← y.section?
    ["sql_concat", "sql_query_var", "sql_assignment", "xss_dom", "xss_template", "command_tree",
      "command_text", "secret_assignment", "middleware", "middleware_generic"]
  return { sqlConcat := ← Yaml.value found "sql_concat" Yaml.number? d.sqlConcat
           sqlQueryVar := ← Yaml.value found "sql_query_var" Yaml.number? d.sqlQueryVar
           sqlAssignment := ← Yaml.value found "sql_assignment" Yaml.number? d.sqlAssignment
           xssDom := ← Yaml.value found "xss_dom" Yaml.number? d.xssDom
           xssTemplate := ← Yaml.value found "xss_template" Yaml.number? d.xssTemplate
           commandTree := ← Yaml.value found "command_tree" Yaml.number? d.commandTree
           commandText := ← Yaml.value found "command_text" Yaml.number? d.commandText
           secretAssignment := ← Yaml.value found "secret_assignment" Yaml.number? d.secretAssignment
           middleware := ← Yaml.value found "middleware" Yaml.number? d.middleware
           middlewareGeneric := ← Yaml.value found "middleware_generic" Yaml.number? d.middlewareGeneric }

namespace Settings

def ofYaml? (y : Yaml) : Option Settings := do
  let found ← y.section? ["cache", "validation", "penalties", "confidence", "detectors"]
  return { cache := ← Yaml.value found "cache" CacheSettings.ofYaml? {}
           validation := ← Yaml.value found "validation" ValidationSettings.ofYaml? {}
           penalties := ← Yaml.value found "penalties" Penalties.ofYaml? {}
           confidence := ← Yaml.value found "confidence" Confidences.ofYaml? {}
           detectors := ← Yaml.value found "detectors" DetectorScores.ofYaml? {} }

/-! ## 3. The file -/

/-- The names of a settings file, in the order in which they are tried. -/
def fileNames : List String := ["astguard.yaml", ".astguard.yaml"]

/-- The settings file of a directory, if it has one. -/
def discover? (d : Disk) (directory : Path) : Option Path :=
  (fileNames.map directory.entry).find? d.isFile

/-- Reads and checks a settings file. -/
def readFile (d : Disk) (p : Path) : Except SettingsFileError Settings :=
  match d.readText p with
  | .error cause => .error (.unreadable cause)
  | .ok text =>
    match (Yaml.parse text).bind ofYaml? with
    | none => .error .malformed
    | some s =>
      match s.check with
      | .error cause => .error (.rejected cause)
      | .ok _ => .ok s

/-- The settings: from a file that is given, else from that of the directory, else built in. -/
def load (d : Disk) (explicit : Option Path) (directory : Path) : Except SettingsFileError Settings :=
  match explicit.or (discover? d directory) with
  | some p => readFile d p
  | none => .ok {}

end Settings

end CodeAudit
