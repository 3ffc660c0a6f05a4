import CodeAudit.Quality.Profile

/-!
# Code after a jump

In a row of statements, what follows a return, a throw or another jump is not reached.  The first
such statement is reported, once per row.  Declarations that take effect wherever they stand are
passed over, and a label or an empty statement directly after the jump is reached or harmless.
-/

namespace CodeAudit.Quality

/-- Statements that end the search without a finding. -/
def harmlessAfterJump : List String := ["labeled_statement", "empty_statement"]

/-- The statements of a row: named children that are no comments. -/
def statements (profile : Profile) (block : Site) : List Site :=
  block.namedChildren.filter fun n => !n.hasKind profile.commentKinds

/-- The first jump of a row and the first statement after it that counts. -/
def jumpAndNext? (profile : Profile) : List Site → Option (Site × Site)
  | [] => none
  | n :: rest =>
    if n.hasKind profile.terminalKinds then
      (rest.find? fun m => !m.hasKind profile.hoistedKinds).map (n, ·)
    else jumpAndNext? profile rest

/-- The word for a jump: its kind without the ending. -/
def jumpWord (kind : String) : String :=
  let cs := kind.toList
  if Text.endsWith "_statement" cs then String.ofList (cs.take (cs.length - 10)) else kind

def unreachableFinding (s : Snippet) (jump next : Site) : Finding :=
  let word := jumpWord jump.kind
  (Finding.atSite .unreachableCode .warning s.source next
    s!"Unreachable code detected after {word} statement").withSuggestion
    s!"Remove unreachable code or move it before the {word} statement"

/-- The finding of one row, if it has one. -/
def unreachableIn? (profile : Profile) (s : Snippet) (block : Site) : Option Finding :=
  (jumpAndNext? profile (statements profile block)).bind fun (jump, next) =>
    if next.hasKind harmlessAfterJump || next.label.error then none
    else some (unreachableFinding s jump next)

/-- At most one finding per row of statements. -/
def unreachable (profile : Profile) (s : Snippet) : List Finding :=
  Finding.sort <| (s.nodes.filter (·.hasKind profile.blockKinds)).filterMap (unreachableIn? profile s)

end CodeAudit.Quality
