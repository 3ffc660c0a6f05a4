import CodeAudit.Function.Signature

/-!
# Listing the functions of a source

Definitions are taken in preorder, at most one for each place where a definition starts, and
listed by position.  A keyword only filters the list.
-/

namespace CodeAudit

/-! ## 1. Documentation -/

namespace Documentation

/-- Drops the two characters that close a comment from the end, as often as they stand there. -/
def dropClosing (s : List Char) : List Char :=
  (Text.dropCopies ['/', '*'] (by decide) s.reverse).reverse

/-- A line of a comment without the marks of the comment. -/
def bareLine (line : List Char) : List Char :=
  let s := Text.dropCopies ['/', '*', '*'] (by decide) (Text.trim line)
  let s := dropClosing (Text.dropCopies ['/', '*'] (by decide) s)
  let s := Text.dropCopies ['/', '/'] (by decide) s
  Text.trim ((s.dropWhile (· == '*')).dropWhile (· == '#'))

/-- The text of a comment: its lines without marks, empty ones left out. -/
def bareComment (comment : List Char) : List Char :=
  Text.join "\n" (((Text.lines comment).map bareLine).filter fun line => !line.isEmpty)

/-- The text of a string literal that documents a function: without the letters and quotes in
front and the quotes behind. -/
def bareString (literal : List Char) : List Char :=
  let isQuote := fun c => c == '"' || c == '\''
  Text.trim (Text.dropEndWhile isQuote ((literal.dropWhile Text.isAsciiLetter).dropWhile isQuote))

/-- The string that opens a body, if the body opens with one. -/
def openingString? (source : List Char) (n : Site) : Option (List Char) :=
  if n.kind != "function_definition" then none
  else
    (n.field? "body").bind fun body =>
      body.namedChildren.head?.bind fun first =>
        if first.kind != "expression_statement" then none
        else
          (first.namedChildren.head?.filter (·.kind == "string")).map fun literal =>
            bareString (literal.text source)

/-- Nodes that may stand between a definition and the comment above it. -/
def wrappers : List String :=
  ["variable_declarator", "lexical_declaration", "variable_declaration", "export_statement",
    "decorated_definition"]

/-- The outermost of the wrappers directly around a node, or the node itself. -/
def anchor (n : Site) : Site := ((n.ancestors.takeWhile (·.hasKind wrappers)).getLast?).getD n

/-- The comments that stand directly above row `row`, without an empty line between, the lowest
first. -/
def commentsAbove (source : List Char) (row : Nat) : List Site → List (List Char)
  | [] => []
  | n :: rest =>
    if n.kind == "comment" && (n.endPosition source).row + 1 == row then
      bareComment (n.text source) :: commentsAbove source (n.startPosition source).row rest
    else []

/-- What documents a definition: the string that opens its body, else the comments above it. -/
def ofDefinition (source : List Char) (n : Site) : List Char :=
  match openingString? source n with
  | some doc => doc
  | none =>
    let a := anchor n
    Text.trim (Text.join "\n" (commentsAbove source (a.startPosition source).row a.previousSiblings).reverse)

end Documentation

/-! ## 2. The list -/

namespace Function

/-- The parameters as they are written; comments among them do not count. -/
def parameterTexts (source : List Char) (parameters : Site) : List String :=
  if parameters.kind == "identifier" then [String.ofList (parameters.text source)]
  else
    (parameters.namedChildren.filter (·.kind != "comment")).map fun p => String.ofList (p.text source)

/-- A declared result, without the colon in front of it. -/
def resultText? (source : List Char) (result : Option Site) : Option String :=
  result.bind fun r =>
    let s := Text.trim ((Text.trim (r.text source)).dropWhile (· == ':'))
    if s.isEmpty then none else some (String.ofList s)

/-- Facts about a definition, in the order of their names. -/
def facts (l : Language) (source : List Char) (n : Site) : List (String × String) :=
  (if n.children.any (·.kind == "async") then [("async", "true")] else []) ++
    (((n.enclosing? l.ownerKinds).bind (·.field? "name")).toList.map fun owner =>
      ("class", String.ofList (owner.text source))) ++
    [("kind", n.kind)] ++
    ((n.receiverType? source).toList.map fun receiver => ("receiver", String.ofList receiver))

def ofSignature (l : Language) (source : List Char) (sig : Signature) : Function :=
  let n := sig.definition
  let name := sig.name.text source
  { name
    language := l
    span := n.span source
    parameters := parameterTexts source sig.parameters
    returnType := resultText? source sig.result
    visibility := l.visibility source n name
    documentation := String.ofList (Documentation.ofDefinition source n)
    code := String.ofList (n.text source)
    metadata := facts l source n }

/-- Drops the signatures whose definition starts where an earlier one does. -/
def firstAtEachStart : List Nat → List Signature → List Signature
  | _, [] => []
  | seen, sig :: rest =>
    let start := sig.definition.label.start
    if seen.contains start then firstAtEachStart seen rest
    else sig :: firstAtEachStart (start :: seen) rest

/-- The functions of a source whose name contains a keyword, all of them without one, listed by
position. -/
def search (l : Language) (source : List Char) (tree : Tree) (keyword : Option String) :
    List Function :=
  let signatures := firstAtEachStart [] ((Site.top tree).nodes.filterMap l.signature?)
  ((signatures.map (ofSignature l source)).filter fun f => keyword.all f.matchesKeyword).mergeSort le

/-- The first function with exactly this name. -/
def named? (l : Language) (source : List Char) (tree : Tree) (name : String) : Option Function :=
  (search l source tree (some name)).find? fun f => f.name == name.toList

end Function

end CodeAudit
