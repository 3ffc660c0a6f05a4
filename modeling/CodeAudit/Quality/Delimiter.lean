import CodeAudit.Quality.Profile

/-!
# Delimiters that do not match

Where a parser reports an error, an unmatched brace, bracket or parenthesis is the likely cause.
Each outermost error is reported, and the kind of delimiter is guessed once for the whole source:
the first whose opening and closing counts differ.
-/

namespace CodeAudit.Quality

inductive Delimiter where
  | brace
  | bracket
  | parenthesis
  | template
  deriving DecidableEq, Repr

namespace Delimiter

def name : Delimiter → String
  | .brace => "brace"
  | .bracket => "bracket"
  | .parenthesis => "parenthesis"
  | .template => "template"

/-- The pairs in the order in which they are blamed. -/
def pairs : List (Delimiter × Char × Char) :=
  [(.brace, '\x7b', '\x7d'), (.bracket, '[', ']'), (.parenthesis, '(', ')')]

/-- Whether a language has templates between backticks. -/
def hasTemplates (language : String) : Bool := language == "javascript" || language == "typescript"

/-- The delimiter to blame. -/
def guess (source : List Char) (language : String) : Delimiter :=
  match pairs.find? fun (_, first, last) =>
      Text.occurrences first source != Text.occurrences last source with
  | some (d, _, _) => d
  | none =>
    if hasTemplates language && Text.occurrences (Char.ofNat 0x60) source % 2 == 1 then .template
    else .brace

/-- Where to look, in the words of a language. -/
def hint? (language : String) (d : Delimiter) : Option String :=
  if language == "go" then
    match d with
    | .brace => some "In Go, every '\x7b' of a function, type or block needs its '\x7d'"
    | .bracket => some "In Go, check slice and array literals and index expressions"
    | .parenthesis => some "In Go, check call arguments, conversions and import groups"
    | .template => none
  else if hasTemplates language then
    match d with
    | .brace => some "Check object literals, destructuring patterns and block statements"
    | .bracket => some "Check array literals and computed member access"
    | .parenthesis => some "Check call arguments, arrow function parameters and conditions"
    | .template => some "Check that every template literal backtick is closed"
  else if language == "python" then
    match d with
    | .brace => some "In Python, check dict and set literals and comprehensions"
    | .bracket => some "In Python, check list literals, comprehensions and subscripts"
    | .parenthesis => some "In Python, check calls, tuples and generator expressions"
    | .template => none
  else none

def suggestion (language : String) (d : Delimiter) : String :=
  let base := s!"Check for mismatched {d.name}s around this location"
  match d.hint? language with
  | some hint => s!"{base}. {hint}"
  | none => base

end Delimiter

/-- Whether a node is itself an error, or stands for a token that is missing. -/
def isErrorNode (n : Site) : Bool := n.label.error || n.label.missing

def mismatchFinding (s : Snippet) (d : Delimiter) (n : Site) : Finding :=
  let f := (Finding.atSite .braceMismatch .error s.source n
    s!"Parse error detected in {s.language} code - likely mismatched {d.name}").withSuggestion
    (d.suggestion s.language)
  if n.label.missing then { f with code := s!"missing {n.kind}" } else f

/-- One finding per outermost error; below a node without errors nothing is looked at. -/
def mismatches (s : Snippet) : List Finding :=
  match s.root? with
  | none => []
  | some root =>
    if !root.label.hasError then []
    else
      let d := Delimiter.guess s.source s.language
      Finding.sort <| root.gather fun n =>
        if isErrorNode n then ([mismatchFinding s d n], false) else ([], n.label.hasError)

end CodeAudit.Quality
