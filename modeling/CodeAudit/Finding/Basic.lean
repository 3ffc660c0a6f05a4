import CodeAudit.Finding.Kind
import CodeAudit.Tree.Site

/-!
# Findings

A finding is an issue at a place of a source, with a message, a suggestion and a confidence
between zero and one.  Findings are listed by position, so that two runs list them alike.
-/

namespace CodeAudit

/-- The nearest number to `x` between zero and one. -/
def clampUnit (x : Float) : Float := if x < 0.0 then 0.0 else if 1.0 < x then 1.0 else x

/-- A stretch of a source; lines and columns count from one, columns in bytes. -/
structure Span where
  line : Nat
  column : Nat
  endLine : Nat
  endColumn : Nat
  deriving DecidableEq, Repr, Inhabited

/-- The stretch of a node. -/
def Site.span (source : List Char) (s : Site) : Span :=
  let first := s.startPosition source
  let last := s.endPosition source
  ⟨first.row + 1, first.column + 1, last.row + 1, last.column + 1⟩

/-- The stretch of a whole line. -/
def Span.ofLine (line : Nat) (text : List Char) : Span := ⟨line, 1, line, Text.utf8Length text + 1⟩

/-- A single issue. -/
structure Finding where
  kind : FindingKind
  severity : Severity
  span : Span
  message : String
  code : String
  suggestion : String
  confidence : Float
  autoFixSafe : Bool
  fixType : FixType
  reasoning : String
  validated : Bool
  deriving Inhabited

namespace Finding

def line (f : Finding) : Nat := f.span.line

def column (f : Finding) : Nat := f.span.column

/-- A fresh finding: even confidence, not validated, not to be fixed without a human. -/
def fresh (kind : FindingKind) (severity : Severity) (span : Span) (message : String)
    (code : List Char) : Finding where
  kind := kind
  severity := severity
  span := span
  message := message
  code := String.ofList code
  suggestion := ""
  confidence := 0.5
  autoFixSafe := false
  fixType := kind.fixType
  reasoning := ""
  validated := false

/-- A finding at a node. -/
def atSite (kind : FindingKind) (severity : Severity) (source : List Char) (s : Site)
    (message : String) : Finding :=
  fresh kind severity (s.span source) message (s.text source)

/-- A finding for a whole line. -/
def atLine (kind : FindingKind) (severity : Severity) (line : Nat) (text : List Char)
    (message : String) : Finding :=
  fresh kind severity (.ofLine line text) message (Text.trim text)

def withSuggestion (f : Finding) (suggestion : String) : Finding := { f with suggestion }

def withConfidence (f : Finding) (confidence : Float) : Finding :=
  { f with confidence := clampUnit confidence }

def withReasoning (f : Finding) (reasoning : String) : Finding := { f with reasoning }

/-- The first name in single quotes in the message: what stands between the first two quotes, or
after the only one. -/
def quotedName? (f : Finding) : Option String :=
  match f.message.toList.dropWhile (· != '\'') with
  | [] => none
  | _ :: rest =>
    let name := Text.upTo '\'' rest
    if name.isEmpty then none else some (String.ofList name)

/-- Order of listing: by line, then column, then name of the kind. -/
def le (a b : Finding) : Bool :=
  if a.line ≠ b.line then a.line < b.line
  else if a.column ≠ b.column then a.column < b.column
  else !decide (b.kind.name < a.kind.name)

/-- Findings in the order of listing; equal ones stay in their order. -/
def sort (fs : List Finding) : List Finding := fs.mergeSort le

end Finding

end CodeAudit
