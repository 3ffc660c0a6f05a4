import CodeAudit.Disk.Basic

/-!
# Changing a disk

Writing, making and removing entries.  Directories that are missing on the way are made.
-/

namespace CodeAudit.Disk

/-- The names that steps lead to from a directory (in reverse), if no link is on the way. -/
def plainNames (here : List String) : List Step → List String
  | [] => here.reverse
  | .up :: rest => plainNames here.tail rest
  | .into name :: rest => plainNames (name :: here) rest

/-- Where an entry is or would be: its directory with links followed, and its own name. -/
def placeOf (d : Disk) (p : Path) : List String :=
  let start := if p.absolute then [] else d.workingDirectory.reverse
  match p.steps.getLast? with
  | some (.into name) =>
    match d.followLinks maxLinks start p.steps.dropLast with
    | .ok names => names ++ [name]
    | .error _ => plainNames start p.steps
  | _ => plainNames start p.steps

/-- Puts an entry at a path. -/
def put (d : Disk) (p : Path) (t : FileTree) : Disk :=
  { d with top := d.top.change (fun _ => some t) (d.placeOf p) }

/-- Writes a file; through a link, the file it leads to. -/
def write (d : Disk) (p : Path) (bytes : ByteArray) : Disk :=
  match d.resolve p with
  | .ok names => { d with top := d.top.change (fun _ => some (.file bytes)) names }
  | .error _ => d.put p (.file bytes)

/-- Makes a directory, unless there is one. -/
def makeDirectory (d : Disk) (p : Path) : Disk :=
  { d with top := d.top.change (fun t => some (t.getD (.directory []))) (d.placeOf p) }

/-- Removes an entry; a link itself, not what it leads to. -/
def remove (d : Disk) (p : Path) : Disk :=
  { d with top := d.top.change (fun _ => none) (d.placeOf p) }

end CodeAudit.Disk
