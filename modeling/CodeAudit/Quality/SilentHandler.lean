import CodeAudit.Pattern.Build
import CodeAudit.Quality.Profile

/-!
# Handlers that swallow errors

Each language has its own shape of handler: a catch clause, an except clause, or a test of an
error value against nil.  A handler is silent when nothing but comments stands in its body (in the
language with a statement that does nothing, nothing but that).
-/

namespace CodeAudit.Quality

def handlerComments : List String := ["comment", "line_comment", "block_comment"]

mutual

/-- Whether a body holds nothing but comments and nodes of `ignorable` kinds.  A list of statements
inside it is looked through. -/
def isSilent (ignorable : List String) : Tree → Bool
  | .node _ kids => allSilent ignorable kids

def allSilent (ignorable : List String) : List Tree → Bool
  | [] => true
  | t :: ts =>
    (!t.label.named || handlerComments.contains t.kind || ignorable.contains t.kind ||
      (t.kind == "statement_list" && isSilent ignorable t)) && allSilent ignorable ts

end

/-- A comparison of a name with `err` in it against nil, and nothing else. -/
def errorCheck : Pattern :=
  .chain [.textStart, .spaces, .many .wordChar, .charIn "eE", .word "rr", .many .wordChar,
    .spaces, .word "!=", .spaces, .word "nil", .spaces, .textEnd]

/-- The node to report for a silent handler: its body, or the handler itself if it has none. -/
def silentHandler? (l : Language) (s : Snippet) (n : Site) : Option Site :=
  match l with
  | .go =>
    if n.kind != "if_statement" then none
    else
      (n.field? "condition").bind fun condition =>
        if errorCheck.occursIn (s.text condition) then
          (n.field? "consequence").filter fun body => isSilent [] body.tree
        else none
  | .javascript | .typescript =>
    if n.kind != "catch_clause" then none
    else
      ((n.field? "body").or (n.childOfKind? ["statement_block"])).filter fun body =>
        isSilent [] body.tree
  | .python =>
    if n.kind != "except_clause" then none
    else
      match n.childOfKind? ["block"] with
      | some body => if isSilent ["pass_statement"] body.tree then some body else none
      | none => some n

def silentFinding (s : Snippet) (body : Site) : Finding :=
  ((Finding.atSite .emptyCatch .warning s.source body
    "Empty catch/except block detected - errors are silently ignored").withSuggestion
    "Add error handling logic or logging to the catch block").withReasoning
    "Pending codebase validation"

/-- One finding per silent handler. -/
def silentHandlers (l : Language) (s : Snippet) : List Finding :=
  Finding.sort <| (s.nodes.filterMap (silentHandler? l s)).map (silentFinding s)

end CodeAudit.Quality
