import CodeAudit.Quality.Profile

/-!
# Functions defined more than once

A function's qualified name is its own name after the type of its receiver and the names of the
containers around it, so methods of one name in two classes do not collide.  Every definition of
a qualified name that is defined more than once is a finding, except for names that the language
lets repeat.
-/

namespace CodeAudit.Quality

/-- The names of the containers around a node, the outermost first. -/
def scopeNames (profile : Profile) (source : List Char) (n : Site) : List (List Char) :=
  ((n.ancestors.filter (·.hasKind profile.scopeKinds)).filterMap fun a =>
    (a.field? "name").map (·.text source)).reverse

/-- Containers, receiver type and name, joined by points; `none` for a function without a name. -/
def qualifiedName? (profile : Profile) (source : List Char) (n : Site) : Option String :=
  (n.field? "name").bind fun nameNode =>
    let name := nameNode.text source
    if name.isEmpty then none
    else
      let receiver := (n.receiverType? source).toList
      some (String.ofList (Text.join "." (scopeNames profile source n ++ receiver ++ [name])))

/-- The definitions of named functions with their qualified names, in preorder. -/
def definitions (profile : Profile) (s : Snippet) : List (Site × String) :=
  (s.nodes.filter (·.hasKind profile.functionKinds)).filterMap fun n =>
    (qualifiedName? profile s.source n).map (n, ·)

/-- How often a name is defined. -/
def timesDefined (defs : List (Site × String)) (name : String) : Nat := defs.countP (·.2 == name)

def duplicateFinding (s : Snippet) (n : Site) (name : String) (times : Nat) : Finding :=
  (Finding.atSite .duplicateFunction .error s.source n
    s!"Duplicate function definition: '{name}' is defined {times} times").withSuggestion
    s!"Remove duplicate definition of '{name}' or rename one of them"

/-- One finding for every definition of a name that is defined more than once. -/
def duplicates (profile : Profile) (s : Snippet) : List Finding :=
  let defs := definitions profile s
  Finding.sort <| defs.filterMap fun (n, name) =>
    let times := timesDefined defs name
    if 1 < times && !profile.repeatable.contains name then some (duplicateFinding s n name times)
    else none

end CodeAudit.Quality
