import CodeAudit.Quality.Profile

/-!
# Variables that are never read

A declaration inside a body is unused when no identifier with its text stands outside the
declarations, anywhere in the source.  **Scopes are not looked at**: a read of another variable of
the same name counts.
-/

namespace CodeAudit

namespace Language

/-- Children that are identifiers. -/
def identifiersIn (n : Site) : List Site := n.namedChildren.filter (·.kind == "identifier")

/-- The node itself, if it is an identifier. -/
def ifIdentifier (n : Option Site) : List Site := n.toList.filter (·.kind == "identifier")

/-- The name that one parameter declares. -/
def parameterName (p : Site) : List Site :=
  match p.kind with
  | "identifier" => [p]
  | "typed_parameter" => ifIdentifier p.namedChildren.head?
  | "default_parameter" | "typed_default_parameter" => ifIdentifier (p.field? "name")
  | _ => []

/-- The names that a node declares. -/
def declaredNames : Language → Site → List Site
  | .go, n =>
    match n.kind with
    | "short_var_declaration" => ((n.field? "left").map identifiersIn).getD []
    | "var_spec" => n.fields "name"
    | _ => []
  | .javascript, n | .typescript, n =>
    if n.kind == "variable_declarator" then ifIdentifier (n.field? "name") else []
  | .python, n =>
    match n.kind with
    | "assignment" =>
      match n.field? "left" with
      | some left =>
        match left.kind with
        | "identifier" => [left]
        | "pattern_list" | "tuple_pattern" => identifiersIn left
        | _ => []
      | none => []
    | "parameters" => n.namedChildren.flatMap parameterName
    | _ => []

end Language

namespace Quality

/-- Names that are never reported. -/
def isIgnoredName (name : List Char) : Bool :=
  name.isEmpty || [['_'], "self".toList, "cls".toList].contains name || isDunder name

/-- The names declared inside a body, in preorder of the declaring nodes. -/
def localDeclarations (l : Language) (s : Snippet) : List Site :=
  (s.nodes.flatMap l.declaredNames).filter fun n => (n.enclosing? l.profile.bodyKinds).isSome

/-- The texts of the identifiers that read a variable: all but the declarations themselves. -/
def readNames (l : Language) (s : Snippet) (declared : List Site) : List (List Char) :=
  let paths := declared.map Site.path
  (s.nodes.filter fun n =>
    n.hasKind l.profile.referenceKinds && !paths.contains n.path).map s.text

def unusedFinding (s : Snippet) (n : Site) (name : String) : Finding :=
  (Finding.atSite .unusedVariable .warning s.source n
    s!"Unused variable: '{name}' is declared but never used").withSuggestion
    s!"Remove unused variable '{name}' or use it in an expression"

/-- One finding for every declaration in a body whose name is never read. -/
def unused (l : Language) (s : Snippet) : List Finding :=
  let declared := localDeclarations l s
  let reads := readNames l s declared
  Finding.sort <| declared.filterMap fun n =>
    let name := s.text n
    if isIgnoredName name || reads.contains name then none
    else some (unusedFinding s n (String.ofList name))

end Quality

end CodeAudit
