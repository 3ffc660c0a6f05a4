import CodeAudit.Path

/-!
# Directories and links

The part of a disk that matters: files with their bytes, directories, and symbolic links.  A path
is resolved step by step from the top or the working directory.  A link puts the steps of its
target in front of those that are left; **after `maxLinks` links the resolution gives up**, so it
always ends.
-/

namespace CodeAudit

/-- What a name in a directory stands for. -/
inductive FileTree where
  | file (bytes : ByteArray)
  | link (target : Path)
  | directory (entries : List (String × FileTree))
  deriving Inhabited

/-- Why a path leads to nothing that can be read. -/
inductive FileError where
  | notFound
  | notDirectory
  | isDirectory
  | tooManyLinks
  /-- The bytes of the file are no text. -/
  | notText
  deriving DecidableEq, Repr

def FileError.message : FileError → String
  | .notFound => "No such file or directory (os error 2)"
  | .notDirectory => "Not a directory (os error 20)"
  | .isDirectory => "Is a directory (os error 21)"
  | .tooManyLinks => "Too many levels of symbolic links (os error 40)"
  | .notText => "stream did not contain valid UTF-8"

namespace FileTree

/-- The entry of a directory under a name. -/
def lookup? (name : String) : FileTree → Option FileTree
  | .directory entries => (entries.find? fun e => e.1 == name).map Prod.snd
  | _ => none

/-- What stands at the end of a row of names, links not followed. -/
def at? (t : FileTree) : List String → Option FileTree
  | [] => some t
  | name :: rest => (t.lookup? name).bind fun child => child.at? rest

/-- Replaces the entry of a directory under a name; `none` removes it. -/
def setEntry (name : String) (new : Option FileTree) : FileTree → FileTree
  | .directory entries =>
    .directory (entries.filter (fun e => e.1 != name) ++ new.toList.map fun t => (name, t))
  | t => t

/-- Changes what stands at the end of a row of names; directories on the way are made where
there is nothing. -/
def change (f : Option FileTree → Option FileTree) : List String → FileTree → FileTree
  | [], t => t
  | [name], t => t.setEntry name (f (t.lookup? name))
  | name :: next :: rest, t =>
    t.setEntry name (some (change f (next :: rest) ((t.lookup? name).getD (.directory []))))

mutual

/-- Number of directories. -/
def directoryCount : FileTree → Nat
  | .directory entries => 1 + directoryCountIn entries
  | _ => 0

def directoryCountIn : List (String × FileTree) → Nat
  | [] => 0
  | (_, t) :: rest => t.directoryCount + directoryCountIn rest

end

end FileTree

/-- A disk, and the directory that relative paths start from, as names from the top. -/
structure Disk where
  top : FileTree
  workingDirectory : List String
  deriving Inhabited

namespace Disk

/-- The greatest number of links that one resolution follows. -/
def maxLinks : Nat := 40

/-- What to do with a link: the directory it stands in, its target, and the steps after it. -/
abbrev LinkStep := List String → Path → List Step → Except FileError (List String)

/-- Follows steps from a directory, given by its names in reverse.  `link` takes over at the
first link. -/
def follow (d : Disk) (link : LinkStep) (here : List String) : List Step → Except FileError (List String)
  | [] => .ok here.reverse
  | .up :: rest => d.follow link here.tail rest
  | .into name :: rest =>
    match (d.top.at? here.reverse).bind (·.lookup? name) with
    | none => .error .notFound
    | some (.link target) => link here target rest
    | some (.directory _) => d.follow link (name :: here) rest
    | some (.file _) => if rest.isEmpty then .ok (name :: here).reverse else .error .notDirectory

/-- Follows steps from a directory through at most `n` links. -/
def followLinks (d : Disk) : Nat → List String → List Step → Except FileError (List String)
  | 0, here, steps => d.follow (fun _ _ _ => .error .tooManyLinks) here steps
  | n + 1, here, steps =>
    d.follow (fun here target rest =>
      d.followLinks n (if target.absolute then [] else here) (target.steps ++ rest)) here steps

/-- The names from the top to what a path leads to, all links followed. -/
def resolve (d : Disk) (p : Path) : Except FileError (List String) :=
  (d.followLinks maxLinks (if p.absolute then [] else d.workingDirectory.reverse) p.steps).bind
    fun names =>
      match d.top.at? names with
      | some (.file _) => if p.folder then .error .notDirectory else .ok names
      | _ => .ok names

/-- A path with all links followed, or the path itself if it leads nowhere. -/
def canonical (d : Disk) (p : Path) : Path :=
  match d.resolve p with
  | .ok names => Path.ofNames names
  | .error _ => p

/-- The bytes of a file. -/
def readBytes (d : Disk) (p : Path) : Except FileError ByteArray :=
  (d.resolve p).bind fun names =>
    match d.top.at? names with
    | some (.file bytes) => .ok bytes
    | some (.directory _) => .error .isDirectory
    | _ => .error .notFound

/-- The text of a file. -/
def readText (d : Disk) (p : Path) : Except FileError String :=
  (d.readBytes p).bind fun bytes =>
    match String.fromUTF8? bytes with
    | some text => .ok text
    | none => .error .notText

/-- Whether a path leads to a file. -/
def isFile (d : Disk) (p : Path) : Bool := (d.readBytes p).toBool

end Disk

end CodeAudit
