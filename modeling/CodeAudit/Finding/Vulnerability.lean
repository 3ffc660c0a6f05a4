import CodeAudit.Finding.Basic

/-!
# Vulnerabilities

A vulnerability is a finding in the making, with a description and a remedy of its own.  Several
passes look for the same thing, so their results are merged: **of the vulnerabilities of one kind
on one line the most certain is kept, and of equally certain ones the first.**
-/

namespace CodeAudit

structure Vulnerability where
  kind : FindingKind
  severity : Severity
  span : Span
  message : String
  code : String
  description : String
  remediation : String
  confidence : Float
  deriving Inhabited

namespace Vulnerability

def line (v : Vulnerability) : Nat := v.span.line

def column (v : Vulnerability) : Nat := v.span.column

/-- A vulnerability with nothing said about it yet. -/
def fresh (kind : FindingKind) (severity : Severity) (span : Span) (message : String)
    (code : List Char) : Vulnerability where
  kind := kind
  severity := severity
  span := span
  message := message
  code := String.ofList code
  description := ""
  remediation := ""
  confidence := 0.0

/-- A vulnerability at a node. -/
def atSite (kind : FindingKind) (severity : Severity) (source : List Char) (s : Site)
    (message : String) : Vulnerability :=
  fresh kind severity (s.span source) message (s.text source)

/-- A vulnerability for a whole line. -/
def atLine (kind : FindingKind) (severity : Severity) (line : Nat) (text : List Char)
    (message : String) : Vulnerability :=
  fresh kind severity (.ofLine line text) message (Text.trim text)

def describe (v : Vulnerability) (description remediation : String) : Vulnerability :=
  { v with description, remediation }

def withConfidence (v : Vulnerability) (confidence : Float) : Vulnerability :=
  { v with confidence := clampUnit confidence }

def withCode (v : Vulnerability) (code : List Char) : Vulnerability :=
  { v with code := String.ofList code }

/-- The finding made from a vulnerability; it is never fixed without a human. -/
def toFinding (v : Vulnerability) : Finding where
  kind := v.kind
  severity := v.severity
  span := v.span
  message := v.message
  code := v.code
  suggestion := v.remediation
  confidence := v.confidence
  autoFixSafe := false
  fixType := v.kind.fixType
  reasoning := v.description
  validated := false

/-! ## Merging -/

/-- Whether two vulnerabilities stand for one another: same line, same kind. -/
def alike (v w : Vulnerability) : Bool := v.line == w.line && v.kind == w.kind

/-- Puts one more vulnerability to those kept so far. -/
def absorb (v : Vulnerability) : List Vulnerability → List Vulnerability
  | [] => [v]
  | w :: rest =>
    if alike w v then (if w.confidence < v.confidence then v else w) :: rest
    else w :: absorb v rest

/-- One vulnerability per line and kind, in the order of first appearance. -/
def winners (vs : List Vulnerability) : List Vulnerability := vs.foldl (fun kept v => absorb v kept) []

/-- Order of listing: by line, then column. -/
def le (a b : Vulnerability) : Bool :=
  if a.line ≠ b.line then a.line < b.line else a.column ≤ b.column

/-- One vulnerability per line and kind, listed by position. -/
def mergeByLine (vs : List Vulnerability) : List Vulnerability := (winners vs).mergeSort le

end Vulnerability

/-! ## Risk -/

inductive RiskLevel where
  | none
  | low
  | medium
  | high
  | critical
  deriving DecidableEq, Repr, Inhabited

namespace RiskLevel

def name : RiskLevel → String
  | .none => "none"
  | .low => "low"
  | .medium => "medium"
  | .high => "high"
  | .critical => "critical"

/-- The level of a score between 0 and 100; a bound belongs to the lower level. -/
def ofScore (score : Float) : RiskLevel :=
  if score ≤ 0.0 then .none
  else if score ≤ 25.0 then .low
  else if score ≤ 50.0 then .medium
  else if score ≤ 75.0 then .high
  else .critical

end RiskLevel

/-- Aggregate risk from 0 to 100: weight times confidence, relative to as many critical findings
at full confidence.  Nothing found scores zero. -/
def riskScore (vs : List Vulnerability) : Float :=
  if vs.isEmpty then 0.0
  else
    let weighted := vs.foldl (fun sum v => sum + v.severity.weight * v.confidence) 0.0
    weighted / (10.0 * Float.ofNat vs.length) * 100.0

end CodeAudit
