import CodeAudit.CommandLine.Arguments
import CodeAudit.Report.Document
import CodeAudit.Settings.File

/-!
# Running a command

A command reads the settings, then the source, then analyses it and prints a report.  What it does
is a function of the disk, the parser and the arguments: the text it prints, the lines it
complains with, and its exit code.  **Wrong names of formats and severities are reported before
any file is read.**
-/

namespace CodeAudit.CommandLine

/-- What a run comes to. -/
structure Outcome where
  exit : Nat
  output : String := ""
  complaints : List String := []
  deriving DecidableEq, Repr

namespace Exit

def success : Nat := 0

/-- Something bad enough was found, or nothing was where something was asked for. -/
def failed : Nat := 1

def error : Nat := 2

/-- The program itself broke down. -/
def crash : Nat := 101

end Exit

/-- Why a command gives no report. -/
inductive Failure where
  | unknownFormat (name : String)
  | unknownSeverity (name : String)
  | settings (path : String) (cause : SettingsFileError)
  | unreadable (path : String) (cause : FileError)
  | unknownLanguage (path : String)
  | refused (cause : AnalysisError)
  | crashed

def Failure.message : Failure → String
  | .unknownFormat name => s!"unknown output format: {name} (expected pretty or json)"
  | .unknownSeverity name => s!"unknown severity: {name}"
  | .settings path (.unreadable cause) => s!"reading config {path}: " ++ cause.message
  | .settings path .malformed => s!"parsing config {path}: not a settings document"
  | .settings _ (.rejected cause) => cause.message
  | .unreadable path cause => s!"reading {path}: " ++ cause.message
  | .unknownLanguage path => s!"cannot detect language of {path} (use --language)"
  | .refused cause => cause.message
  | .crashed => Fault.clockOverflow.message

/-- What surrounds a run. -/
structure World where
  disk : Disk
  parser : Parser
  /-- Whether colours are wanted. -/
  colors : Bool := false
  now : Instant := 0
  timing : Timing := {}

/-! ## 1. Names, settings and sources -/

def formatOf (name : String) : Except Failure OutputFormat :=
  match OutputFormat.ofName? name with
  | some f => .ok f
  | none => .error (.unknownFormat name)

def severityOf (name : String) : Except Failure Severity :=
  match Severity.ofName? name with
  | some s => .ok s
  | none => .error (.unknownSeverity name)

def filterOf (name : String) : Except Failure SeverityFilter :=
  match SeverityFilter.ofName? name with
  | some f => .ok f
  | none => .error (.unknownSeverity name)

/-- The settings, from the file that is given or that of the working directory. -/
def settingsOf (w : World) (config : Option String) : Except Failure Settings :=
  let directory := Path.ofNames w.disk.workingDirectory
  match Settings.load w.disk (config.map Path.ofString) directory with
  | .ok s => .ok s
  | .error cause =>
    let found := (Settings.discover? w.disk directory).map Path.text
    .error (.settings (config.getD (found.getD "")) cause)

/-- The language of a source: as given, by the extension of its file, or by a guess.  An extension
without a grammar is a language of its own. -/
def languageOf (s : Source) (text : String) : Except Failure String :=
  let path := Path.ofString s.path
  match s.language, Language.ofPath? path, path.extension?, Language.guess? text.toList with
  | some name, _, _, _ => .ok name
  | none, some l, _, _ => .ok l.name
  | none, none, some extension, _ => .ok (String.ofList (Text.lower extension))
  | none, none, none, some l => .ok l.name
  | none, none, none, none => .error (.unknownLanguage s.path)

/-- The text of a source and its language. -/
def sourceText (w : World) (s : Source) : Except Failure (String × String) :=
  match w.disk.readText (.ofString s.path) with
  | .error cause => .error (.unreadable s.path cause)
  | .ok text => (languageOf s text).map fun language => (text, language)

/-- Whether a finding is at least as bad as a severity. -/
def exceeds (fs : List Finding) (failOn : Severity) : Bool := fs.any fun f => failOn.rank ≤ f.severity.rank

def exitFor (fs : List Finding) (failOn : Severity) : Nat :=
  if exceeds fs failOn then Exit.failed else Exit.success

/-! ## 2. The three commands -/

def faultOf : Fault → Failure
  | .refused cause => .refused cause
  | .clockOverflow => .crashed

/-- The report on quality, validated against a project if that is wanted. -/
def qualityReport (w : World) (settings : Settings) (r : Engine.QualityRequest) (path : String)
    (root : Option Path) : Except Failure QualityReport :=
  let engine := Engine.new settings
  let cache := ResultCache.new settings.cache w.now
  let answer := match root with
    | none => (engine.analyze w.parser r w.now cache).1
    | some root => (engine.analyzeInProject w.parser w.disk (.ofString path) root r w.now cache).1
  answer.mapError faultOf

def analyze (w : World) (config : Option String) (s : Source) (selectors : List String)
    (validate : Bool) (projectRoot : Option String) (failOn : String) : Except Failure Outcome := do
  let format ← formatOf s.format
  let failOn ← severityOf failOn
  let settings ← settingsOf w config
  let (text, language) ← sourceText w s
  let root := (projectRoot.map Path.ofString).getD (Path.ofNames w.disk.workingDirectory)
  let report ← qualityReport w settings ⟨text, language, selectors⟩ s.path (if validate then some root else none)
  let output := match format with
    | .json => Document.quality s.path language w.timing report
    | .pretty => Pretty.quality w.colors s.path language w.timing report
  return { exit := exitFor report.findings failOn, output }

def security (w : World) (config : Option String) (s : Source) (severity failOn : String) :
    Except Failure Outcome := do
  let format ← formatOf s.format
  let failOn ← severityOf failOn
  let filter ← filterOf severity
  let settings ← settingsOf w config
  let (text, language) ← sourceText w s
  let report ← ((Engine.new settings).analyzeSecurity w.parser false text language filter).mapError .refused
  let output := match format with
    | .json => Document.security s.path language w.timing report
    | .pretty => Pretty.security w.colors s.path language w.timing report
  return { exit := exitFor report.findings failOn, output }

/-- Prints a list of functions. -/
def listing (w : World) (format : OutputFormat) (path language : String) (fs : List Function) : Outcome where
  exit := Exit.success
  output := match format with
    | .json => Document.functions path language fs
    | .pretty => Pretty.functions w.colors path fs

def extract (w : World) (config : Option String) (s : Source) (name keyword : Option String) :
    Except Failure Outcome := do
  let format ← formatOf s.format
  let _ ← settingsOf w config
  let (text, language) ← sourceText w s
  match name with
  | some name =>
    match ← (Engine.functionNamed w.parser text language name).mapError .refused with
    | some f => return listing w format s.path language [f]
    | none =>
      return { exit := Exit.failed
               complaints := ["function " ++ Text.quoted name ++ " not found in " ++ s.path] }
  | none =>
    let fs ← (Engine.functions w.parser text language keyword).mapError .refused
    return listing w format s.path language fs

/-! ## 3. The program -/

def invoke (w : World) (i : Invocation) : Except Failure Outcome :=
  match i.command with
  | .analyze source selectors validate projectRoot failOn =>
    analyze w i.config source selectors validate projectRoot failOn
  | .security source severity failOn => security w i.config source severity failOn
  | .extract source name keyword => extract w i.config source name keyword

/-- The short form of the usage. -/
def usage : String :=
  "usage: " ++ toolName ++ " [-c FILE] [-v] (analyze | security | extract) PATH [OPTIONS]"

/-- Runs the program on its arguments. -/
def run (w : World) (words : List String) : Outcome :=
  match parse words with
  | .error .usage => { exit := Exit.error, complaints := [usage] }
  | .error .help => { exit := Exit.success, output := usage ++ "\n" }
  | .error .version => { exit := Exit.success, output := toolName ++ " " ++ toolVersion ++ "\n" }
  | .ok invocation =>
    match invoke w invocation with
    | .ok outcome => outcome
    | .error .crashed => { exit := Exit.crash, complaints := [Failure.crashed.message] }
    | .error failure => { exit := Exit.error, complaints := ["Error: " ++ failure.message] }

end CodeAudit.CommandLine
