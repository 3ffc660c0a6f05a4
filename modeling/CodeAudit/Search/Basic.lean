import CodeAudit.Disk.Basic
import CodeAudit.Pattern.Build
import CodeAudit.Settings.Basic

/-!
# Searching a project

All lines of a project's source files on which a name occurs.  The walk follows links, passes over
those that lead nowhere or back to a directory it is inside of, and does not enter directories
that the filter names.  **Directories are judged by the name they are reached under**, the root
of the walk included.

Each link that is followed enters a directory that is not yet on the way from the root, so the
number of directories bounds how many links can be followed inside one another, and the walk ends.
-/

namespace CodeAudit

/-! ## 1. What is looked for -/

/-- A name as a whole word, or the call of a function of that name. -/
inductive Query where
  | word (name : String)
  | call (name : String)
  deriving DecidableEq, Repr, Inhabited

namespace Query

def pattern : Query → Pattern
  | .word name => .chain [.wordEdge, .word name, .wordEdge]
  | .call name => .chain [.wordEdge, .word name, .spaces, .char '(']

/-- Characters that are written with a backslash before them. -/
def special : List Char := "\\.+*?()|[]\x7b\x7d^$#&-~".toList

/-- A name with its special characters escaped. -/
def escaped (name : String) : String :=
  String.ofList (name.toList.flatMap fun c => if special.contains c then ['\\', c] else [c])

/-- The text that a query is known by. -/
def text : Query → String
  | .word name => "\\b" ++ escaped name ++ "\\b"
  | .call name => "\\b" ++ escaped name ++ "\\s*\\("

end Query

/-! ## 2. Source files -/

/-- Extensions of the files that are searched. -/
def searchedExtensions : List String := ["go", "js", "jsx", "mjs", "cjs", "ts", "tsx", "py"]

/-- Where a walk is: the path it came by, the names from the top, and the directories that it is
inside of, as names from the top. -/
structure Visit where
  path : Path
  names : List String
  inside : List (List String)

/-- The visit of an entry that is a directory of the disk itself. -/
def Visit.enter (v : Visit) (name : String) : Visit :=
  ⟨v.path.entry name, v.names ++ [name], (v.names ++ [name]) :: v.inside⟩

/-- What a walk does at a link to a directory that it is not inside of. -/
abbrev LinkVisit := Visit → List (String × FileTree) → List Path

section Walk

variable (d : Disk) (filter : PathFilter) (follow : LinkVisit)

/-- The files at a link: the link itself, if it leads to a file; those in the directory that it
leads to.  What counts is where the whole path leads by which the walk came. -/
def filesAtLink (v : Visit) (name : String) : List Path :=
  match d.resolve (v.path.entry name) with
  | .error _ => []
  | .ok names =>
    match d.top.at? names with
    | some (.file _) => [v.path.entry name]
    | some (.directory entries) =>
      if v.inside.contains names || filter.skipsDirectory name then []
      else follow ⟨v.path.entry name, names, names :: v.inside⟩ entries
    | _ => []

mutual

/-- The files at an entry of a directory. -/
def filesAt (v : Visit) (name : String) : FileTree → List Path
  | .file _ => [v.path.entry name]
  | .link _ => filesAtLink d filter follow v name
  | .directory entries => if filter.skipsDirectory name then [] else filesIn (v.enter name) entries

/-- The files in a directory. -/
def filesIn (v : Visit) : List (String × FileTree) → List Path
  | [] => []
  | (name, t) :: rest => filesAt v name t ++ filesIn v rest

end

end Walk

/-- The files in a directory, following links at most `n` deep. -/
def walkFiles (d : Disk) (filter : PathFilter) : Nat → LinkVisit
  | 0 => filesIn d filter fun _ _ => []
  | n + 1 => filesIn d filter (walkFiles d filter n)

/-- Whether a file is searched: by its extension, and by its path from the root. -/
def isSearched (filter : PathFilter) (root p : Path) : Bool :=
  (p.extension?.any fun e => searchedExtensions.contains (String.ofList e)) &&
    !filter.excludes ((root.relativeTo? p).getD p).text

/-- All files under a root, before any choice. -/
def allFiles (d : Disk) (filter : PathFilter) (root : Path) : Except FileError (List Path) :=
  (d.resolve root).map fun names =>
    match d.top.at? names with
    | some (.directory entries) =>
      if filter.skipsDirectory (root.fileName?.getD root.text) then []
      else walkFiles d filter d.top.directoryCount ⟨root, names, [names]⟩ entries
    | _ => [root]

/-- The files under a root that are searched. -/
def sourceFiles (d : Disk) (filter : PathFilter) (root : Path) : Except FileError (List Path) :=
  (allFiles d filter root).map fun files => files.filter (isSearched filter root)

/-! ## 3. Hits -/

/-- A line on which a query occurs. -/
structure Hit where
  path : Path
  line : Nat
  text : String
  deriving DecidableEq, Repr

/-- The order of hits: by path, then by line. -/
def Hit.le (a b : Hit) : Bool := if a.path.same b.path then a.line ≤ b.line else a.path.le b.path

/-- The hits in one file; a file that cannot be read has none. -/
def hitsIn (d : Disk) (q : Query) (path : Path) : List Hit :=
  match d.readText path with
  | .error _ => []
  | .ok text =>
    let pattern := q.pattern
    ((Text.numberedLines text.toList).filter fun l => pattern.occursIn l.2).map fun l =>
      ⟨path, l.1, String.ofList l.2⟩

/-- All hits under a root, in their order. -/
def scan (d : Disk) (filter : PathFilter) (root : Path) (q : Query) : Except FileError (List Hit) :=
  (sourceFiles d filter root).map fun files => (files.flatMap (hitsIn d q)).mergeSort Hit.le

/-- The hits outside a file, whatever path it goes by. -/
def without (d : Disk) (skip : Option Path) (hits : List Hit) : List Hit :=
  match skip with
  | none => hits
  | some file => hits.filter fun h => !(d.canonical h.path).same (d.canonical file)

/-- All hits under a root outside a file. -/
def search (d : Disk) (filter : PathFilter) (root : Path) (q : Query) (skip : Option Path) :
    Except FileError (List Hit) :=
  (scan d filter root q).map (without d skip)

end CodeAudit
