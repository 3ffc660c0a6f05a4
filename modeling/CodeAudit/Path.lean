import CodeAudit.Text.Basic

/-!
# File paths

A path is a start (the top of the file system or the current directory) and a list of steps.
Repeated slashes and steps to `.` do not count, so two texts can be one path; a step to `..` does
count, because what it leads to depends on links.  A slash at the end says that a directory is
meant; **it does not make a different path** (`Path.same`).
-/

namespace CodeAudit

/-- One step of a path. -/
inductive Step where
  /-- To the parent directory. -/
  | up
  /-- To an entry of the current directory. -/
  | into (name : String)
  deriving DecidableEq, Repr, Inhabited

structure Path where
  absolute : Bool
  steps : List Step
  /-- Whether the text ends like the name of a directory. -/
  folder : Bool := false
  deriving DecidableEq, Repr, Inhabited

namespace Path

/-- The step that a piece between slashes stands for, if it stands for one. -/
def stepOf? (piece : List Char) : Option Step :=
  if piece = [] ∨ piece = ['.'] then none
  else if piece = ['.', '.'] then some .up
  else some (.into (String.ofList piece))

/-- The path that a text spells. -/
def ofText (s : List Char) : Path where
  absolute := s.head? == some '/'
  steps := (Text.split '/' s).filterMap stepOf?
  folder := !s.isEmpty && (((Text.split '/' s).getLast?.map fun last => (stepOf? last).isNone).getD false)

def ofString (s : String) : Path := ofText s.toList

/-- The path `p`, read from the directory `base`. -/
def within (base p : Path) : Path :=
  if p.absolute then p else ⟨base.absolute, base.steps ++ p.steps, p.folder || p.steps.isEmpty⟩

/-- Whether two paths are the same, however they end. -/
def same (p q : Path) : Bool := p.absolute == q.absolute && p.steps == q.steps

/-- The path of an entry of a directory. -/
def entry (base : Path) (name : String) : Path := ⟨base.absolute, base.steps ++ [.into name], false⟩

/-- The name of the file itself; a path that ends in `..` has none. -/
def fileName? (p : Path) : Option String :=
  match p.steps.getLast? with
  | some (.into name) => some name
  | _ => none

/-- The part of a file name after its last point.  **A point at the front of the name begins no
extension**, so `.profile` has none. -/
def extensionOf? (name : List Char) : Option (List Char) :=
  match Text.beforeLast? '.' name with
  | none | some [] => none
  | some _ => some (Text.afterLast '.' name)

def extension? (p : Path) : Option (List Char) := p.fileName?.bind fun n => extensionOf? n.toList

/-- The text of a step. -/
def Step.text : Step → String
  | .up => ".."
  | .into name => name

/-- The order of steps: up comes before every name. -/
def Step.le : Step → Step → Bool
  | .up, _ => true
  | .into _, .up => false
  | .into a, .into b => a ≤ b

/-- The order of lists of steps: by the first step that differs. -/
def stepsLe : List Step → List Step → Bool
  | [], _ => true
  | _ :: _, [] => false
  | a :: as, b :: bs => if a = b then stepsLe as bs else Step.le a b

/-- The order of paths: step by step, those from the top first. -/
def le (p q : Path) : Bool :=
  if p.absolute = q.absolute then stepsLe p.steps q.steps else p.absolute

/-- The steps from `base` to a path inside it. -/
def relativeTo? (base p : Path) : Option Path :=
  if p.absolute = base.absolute ∧ base.steps.isPrefixOf p.steps then
    some ⟨false, p.steps.drop base.steps.length, false⟩
  else none

/-- The path from the top through some names. -/
def ofNames (names : List String) : Path := ⟨true, names.map Step.into, false⟩

/-- The path as a text. -/
def text (p : Path) : String :=
  (if p.absolute then "/" else "") ++ String.intercalate "/" (p.steps.map Step.text)

/-- The path as a text that also shows whether it ends like the name of a directory: by a slash
after its steps, or by a point where it has none. -/
def spelled (p : Path) : String :=
  p.text ++ (if p.folder then (if p.steps.isEmpty then "." else "/") else "")

end Path

end CodeAudit
