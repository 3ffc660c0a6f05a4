import CodeAudit.Quality.Profile

/-!
# Functions that nothing refers to

A definition is orphaned when its name stands nowhere outside of it.  **A function that only
calls itself is orphaned.**  Entry points, tests and names that are visible from outside are left
out by each language's own rule.
-/

namespace CodeAudit

/-- A name that starts with a capital is exported. -/
def startsUpper (name : List Char) : Bool := name.head?.any Text.isUpper

namespace Language

/-- The names that a source exports by statement. -/
def exportedNames (s : Snippet) : List (List Char) :=
  match s.root? with
  | none => []
  | some root =>
    root.gather fun n =>
      match n.kind with
      | "export_statement" =>
        ((((n.field? "declaration").bind (·.field? "name")).map s.text).toList, true)
      | "export_specifier" => (((n.field? "name").map s.text).toList, false)
      | _ => ([], true)

/-- The definitions that can be orphaned. -/
def orphanKinds : Language → List String
  | .go => ["function_declaration"]
  | l => l.profile.functionKinds

/-- The names that are never called orphaned. -/
def keepsName (l : Language) (s : Snippet) : List Char → Bool :=
  match l with
  | .go => fun name =>
    [ "main".toList, "init".toList ].contains name ||
      ["Test", "Benchmark", "Example", "Fuzz"].any (Text.startsWith · name) || startsUpper name
  | .javascript | .typescript =>
    let exported := exportedNames s
    fun name => exported.contains name
  | .python => fun name =>
    name == "main".toList || Text.startsWith "test_" name || isDunder name

end Language

namespace Quality

/-- Whether one node's span lies within another's. -/
def spanWithin (inner outer : Site) : Bool :=
  outer.label.start ≤ inner.label.start && inner.label.stop ≤ outer.label.stop

def orphanFinding (s : Snippet) (n : Site) (name : String) : Finding :=
  ((Finding.atSite .orphanedCode .info s.source n
    s!"Potentially orphaned function: '{name}' is defined but never called").withSuggestion
    s!"Consider removing unused function '{name}' or ensure it is called").withReasoning
    "Pending codebase validation"

/-- One finding for every definition whose name stands nowhere outside of it. -/
def orphans (l : Language) (s : Snippet) : List Finding :=
  let keeps := l.keepsName s
  let symbols := (s.nodes.filter (·.hasKind l.profile.symbolKinds)).map fun n => (s.text n, n)
  Finding.sort <| (s.nodes.filter (·.hasKind l.orphanKinds)).filterMap fun n =>
    (n.field? "name").bind fun nameNode =>
      let name := s.text nameNode
      let referenced := symbols.any fun (text, use) => text == name && !spanWithin use n
      if name.isEmpty || keeps name || referenced then none
      else some (orphanFinding s n (String.ofList name))

end Quality

end CodeAudit
