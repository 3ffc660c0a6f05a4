import CodeAudit.Security.Splice

/-!
# Queries put together from values

Three passes look for queries that carry a value in their text: a pass over lines, a pass over
calls that run a query, and for one dialect a pass over assignments.  **A text that binds its
values through placeholders is left alone**; a percent placeholder counts only if the text does no
formatting of its own.
-/

namespace CodeAudit.Security

/-- Functions that run a query. -/
def queryFunctions : List String :=
  ["Query", "QueryRow", "Exec", "QueryContext", "QueryRowContext", "ExecContext", "query", "execute",
    "exec", "queryOne", "executemany"]

/-- Nodes that bind a value to a name. -/
def bindingKinds : List String := ["short_var_declaration", "assignment_statement", "var_spec"]

/-! ## 1. Patterns -/

/-- A word that occurs in queries. -/
def sqlKeyword : Pattern :=
  .chain [.wordEdge, .wordsAnyCase ["select", "insert", "update", "delete", "where", "from"], .wordEdge]

/-- The skeleton of a statement. -/
def sqlStatement : Pattern :=
  let blanks := Pattern.some1 .space
  .chain [.wordEdge,
    .oneOf [
      .chain [.anyCase "select", blanks, .some1 .anyChar, blanks, .anyCase "from"],
      .chain [.anyCase "insert", blanks, .anyCase "into"],
      .chain [.anyCase "update", blanks, .some1 .wordChar, blanks, .anyCase "set"],
      .chain [.anyCase "delete", blanks, .anyCase "from"]],
    .wordEdge]

/-- A call of a function that runs a query. -/
def queryCall : Pattern := .chain [.wordEdge, .words queryFunctions, .spaces, .char '(']

/-- An assignment to a name that sounds like a query. -/
def queryVariable : Pattern :=
  .chain [.wordEdge, .many .wordChar, .wordsAnyCase ["query", "sql", "stmt"], .many .wordChar,
    .spaces, .words [":=", "=", "+="]]

/-- A placeholder by position. -/
def placeholder : Pattern := .oneOf [.char '?', .chain [.char '$', .some1 .digit]]

/-- Whether a query binds its values through placeholders. -/
def hasPlaceholder (text : List Char) (dialect : Dialect) : Bool :=
  placeholder.occursIn text ||
    (Text.mentions "%s" text && findSplice text dialect != some .formatting)

def isQueryFunction (callee : List Char) : Bool := isOneOf queryFunctions (lastSegment callee)

/-! ## 2. Passes -/

def sqlRemedy : Dialect → String
  | .javascript => "Use parameterized queries or query builders (e.g., Prisma, TypeORM)"
  | .python => "Use parameterized queries (e.g., cursor.execute with %s placeholders)"
  | .go | .generic => "Use parameterized queries (e.g., db.Query with ? placeholders)"

/-- A line that builds a query with `+`, in a call or for a variable. -/
def sqlLine? (s : Snippet) (dialect : Dialect) (line : Nat) (text : List Char) : Option Vulnerability :=
  if !text.contains '+' || !sqlKeyword.occursIn text || hasPlaceholder text dialect then none
  else if queryCall.occursIn text then
    some (((Vulnerability.atLine .sqlInjection .critical line text
      "Potential SQL injection: string concatenation in SQL query").describe
      "SQL query constructed using string concatenation with user input"
      (sqlRemedy dialect)).withConfidence s.scores.sqlConcat)
  else if queryVariable.occursIn text && sqlStatement.occursIn text then
    some (((Vulnerability.atLine .sqlInjection .critical line text
      "Potential SQL injection: query variable constructed with string concatenation").describe
      "SQL query variable constructed using string concatenation"
      (sqlRemedy dialect)).withConfidence s.scores.sqlQueryVar)
  else none

/-- A call that runs a query with values spliced into its arguments. -/
def sqlCall? (s : Snippet) (dialect : Dialect) (n : Site) : Option Vulnerability :=
  if !n.hasKind dialect.callKinds then none
  else
    let callee := n.calleeText s.source
    let args := n.argumentsText s.source
    if !isQueryFunction callee || !sqlKeyword.occursIn args || hasPlaceholder args dialect then none
    else
      (findSplice args dialect).map fun splice =>
        ((Vulnerability.atSite .sqlInjection .critical s.source n
          ("Potential SQL injection in " ++ String.ofList callee ++ s!": {splice.name} in SQL query")).describe
          s!"SQL query constructed using {splice.name} with user input"
          (sqlRemedy dialect)).withConfidence s.scores.sqlConcat

/-- An assignment whose value is a statement put together with `+`. -/
def sqlAssignment? (s : Snippet) (n : Site) : Option Vulnerability :=
  if !n.hasKind bindingKinds then none
  else
    ((n.field? "right").or (n.field? "value")).bind fun value =>
      let text := s.text value
      if sqlStatement.occursIn text && findSplice text .go == some .concatenation &&
          !hasPlaceholder text .go then
        some (((Vulnerability.atSite .sqlInjection .critical s.source n
          "Potential SQL injection: SQL query variable constructed with string concatenation").describe
          "SQL query variable built using string concatenation"
          (sqlRemedy .go)).withConfidence s.scores.sqlAssignment)
      else none

/-- The results of all passes, one per line. -/
def sqlInjections (dialect : Dialect) (s : Snippet) : List Vulnerability :=
  let byLine := s.lines.filterMap fun (line, text) => sqlLine? s dialect line text
  let byCall := s.nodes.filterMap (sqlCall? s dialect)
  let byAssignment := if dialect = .go then s.nodes.filterMap (sqlAssignment? s) else []
  Vulnerability.mergeByLine (byLine ++ byCall ++ byAssignment)

end CodeAudit.Security
