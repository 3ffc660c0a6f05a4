import CodeAudit.Disk.Edit
import CodeAudit.Engine

/-!
# Bundles

A run needs the files of a project and the syntax trees of its sources.  A bundle is a text that
holds both; whoever writes it has the grammars.  It is a row of parts, each with a line that says
what it is and lines that hold its content:

    file PATH
    |a line of the file
    >a last line without an end

    directory PATH

    link PATH
    >TARGET

    tree LANGUAGE PATH
    |CHILDREN FLAGS START STOP FIELD KIND

The tree of a source stands after the source, its nodes in preorder.  `CHILDREN` is the number of a
node's children, `START` and `STOP` are byte offsets, and `FIELD` is `-` for a node without a role.
`FLAGS` are letters, or `-` for none: `n` for a named node, `m` for a missing one, `e` for an error,
`x` for an extra, and `h` for a node that has errors.  In `KIND` a backslash before `n` is the end
of a line, and before another character it is that character.
-/

namespace CodeAudit

/-- The files of a project, and the trees of sources in them. -/
structure Bundle where
  disk : Disk := ⟨.directory [], []⟩
  trees : List (Language × List Char × Tree) := []
  deriving Inhabited

namespace Bundle

/-! ## 1. Parts -/

/-- A heading and the lines of its content. -/
structure Part where
  heading : List Char
  content : List (List Char)
  deriving DecidableEq, Repr

/-- Whether a line belongs to the content of a part. -/
def isContent (line : List Char) : Bool := line.head? == some '|' || line.head? == some '>'

/-- Puts a line before the lines read so far: content of a part whose heading is still to come,
and finished parts.  Empty lines between parts do not count. -/
def gatherLine (line : List Char) (found : List (List Char) × List Part) : List (List Char) × List Part :=
  if isContent line then (line :: found.1, found.2)
  else if line.isEmpty then found
  else ([], ⟨line, found.1⟩ :: found.2)

/-- The parts of a text; `none` if it begins with content. -/
def parts? (text : List Char) : Option (List Part) :=
  match (Text.split '\n' text).foldr gatherLine ([], []) with
  | ([], parts) => some parts
  | _ => none

/-- The text that content lines hold. -/
def contentText (lines : List (List Char)) : List Char :=
  lines.flatMap fun line => if line.head? == some '|' then line.tail ++ ['\n'] else line.tail

/-! ## 2. Nodes -/

/-- The first word of a line, and what follows the blank after it. -/
def nextWord (line : List Char) : List Char × List Char :=
  (Text.upTo ' ' line, (line.dropWhile (· != ' ')).tail)

/-- A kind as it is written, with the backslashes taken out. -/
def plainKind : List Char → List Char
  | '\\' :: 'n' :: rest => '\n' :: plainKind rest
  | '\\' :: c :: rest => c :: plainKind rest
  | c :: rest => c :: plainKind rest
  | [] => []

def number? (word : List Char) : Option Nat := (String.ofList word).toNat?

/-- A node and the number of its children. -/
def node? (line : List Char) : Option (Label × Nat) := do
  let (children, rest) := nextWord line
  let (flags, rest) := nextWord rest
  let (start, rest) := nextWord rest
  let (stop, rest) := nextWord rest
  let (field, kind) := nextWord rest
  let label : Label :=
    { kind := String.ofList (plainKind kind)
      field := if field == ['-'] then none else some (String.ofList field)
      named := flags.contains 'n'
      missing := flags.contains 'm'
      error := flags.contains 'e'
      extra := flags.contains 'x'
      hasError := flags.contains 'h'
      start := ← number? start
      stop := ← number? stop }
  return (label, ← number? children)

/-- The tree whose nodes are given line by line. -/
def tree? (lines : List (List Char)) : Option Tree :=
  (lines.mapM fun line => node? line.tail).bind Tree.ofPreorder?

/-! ## 3. The whole -/

/-- Takes up one more part. -/
def add? (b : Bundle) (part : Part) : Option Bundle :=
  let (what, rest) := nextWord part.heading
  let path := Path.ofText rest
  let text := String.ofList (contentText part.content)
  match String.ofList what with
  | "file" => some { b with disk := b.disk.put path (.file text.toUTF8) }
  | "directory" => some { b with disk := b.disk.makeDirectory path }
  | "link" => some { b with disk := b.disk.put path (.link (.ofString text)) }
  | "tree" =>
    let (language, path) := nextWord rest
    match Language.ofName? (String.ofList language), b.disk.readText (.ofText path), tree? part.content with
    | some l, .ok source, some tree => some { b with trees := (l, source.toList, tree) :: b.trees }
    | _, _, _ => none
  | _ => none

/-- Reads a bundle. -/
def read? (text : String) : Option Bundle :=
  (parts? text.toList).bind fun parts => parts.foldlM add? {}

/-- The root of a source that the bundle has no tree of: an error from end to end. -/
def bareRoot (source : List Char) : Tree :=
  .node { kind := "ERROR", field := none, named := true, missing := false, error := true,
          extra := false, hasError := true, start := 0, stop := Text.utf8Length source } []

/-- Looks trees up in the bundle. -/
def parser (b : Bundle) : Parser := fun l source =>
  match b.trees.find? fun t => t.1 == l && t.2.1 == source with
  | some t => t.2.2
  | none => bareRoot source

end Bundle

end CodeAudit
