import CodeAudit.Confidence.Basic
import CodeAudit.Search.Cache

/-!
# Checking one finding

A detector sees one source.  A check looks at the project: whether other files refer to a name,
whether the name can be used from outside, whether a comment near a silent handler says that it is
meant.
-/

namespace CodeAudit

/-- Why a check came to no result. -/
inductive CheckError where
  | search (cause : FileError)
  | read (cause : FileError)
  /-- The worker stopped halfway. -/
  | aborted
  deriving DecidableEq, Repr

/-- A finding that is to be checked: where it stands in the list, and what the check needs. -/
structure Job where
  index : Nat
  kind : FindingKind
  line : Nat
  name : String
  deriving DecidableEq, Repr, Inhabited

/-- What all checks of a batch share. -/
structure Scope where
  disk : Disk
  /-- The file that the findings are from. -/
  file : Path
  root : Path
  language : Option Language
  filter : PathFilter

namespace Check

/-! ## 1. Intent -/

/-- Lines above and below a finding in which a comment counts. -/
def intentWindow : Nat := 3

/-- A comment with a word that says the code is meant, or not finished. -/
def intentComment : Pattern :=
  .chain [.words ["//", "#", "/*", "*", "<!--"], .many .anyChar, .wordEdge,
    .wordsAnyCase ["todo", "fixme", "hack", "xxx", "note", "intentional", "ignore"]]

/-- Whether such a comment stands near a line, counted from one. -/
def hasIntentComment (source : List Char) (line : Nat) : Bool :=
  (Text.numberedLines source).any fun (n, text) =>
    line - intentWindow ≤ n && n ≤ line + intentWindow && intentComment.occursIn text

/-! ## 2. Exports -/

/-- An export statement with a name in it. -/
def exportOf (name : List Char) : Pattern :=
  let name := Pattern.exact name
  let blanks := Pattern.some1 .space
  let notClosed := Pattern.many (.charNotIn "\x7d")
  .oneOf
    [.chain [.word "export", blanks, .optional (.chain [.word "default", blanks]),
        .oneOf [.chain [.optional (.chain [.word "async", blanks]), .word "function", .optional (.char '*')],
          .words ["class", "const", "let", "var"]],
        blanks, name, .wordEdge],
      .chain [.word "export", .spaces, .char '\x7b', notClosed, .wordEdge, name, .wordEdge, notClosed,
        .char '\x7d'],
      .chain [.word "export", blanks, .word "default", blanks, name, .wordEdge]]

/-- Whether a script exports a name. -/
def isExportedIn (source name : List Char) : Bool := (exportOf name).occursIn source

/-- Whether a name can be used from outside.  In scripts the file says so, elsewhere the name. -/
def isExported (s : Scope) (name : String) : Bool :=
  match s.language with
  | some .python => !Text.startsWith "_" name.toList
  | some .javascript | some .typescript =>
    match s.disk.readText s.file with
    | .ok source => isExportedIn source.toList name.toList
    | .error _ => false
  | some .go | none => name.toList.head?.any Text.isUpper

/-! ## 3. References -/

/-- The hits of some queries outside the file itself; `moment i` is when the i-th search runs. -/
def hitsOf (s : Scope) (moment : Nat → Instant) :
    Nat → List Query → SearchCache → Except CheckError (List Hit) × SearchCache
  | _, [], c => (.ok [], c)
  | i, q :: rest, c =>
    match c.search s.disk s.filter s.root q (some s.file) (moment i) with
    | (.error (.root cause), c) => (.error (.search cause), c)
    | (.error .clockOverflow, c) => (.error .aborted, c)
    | (.ok hits, c) =>
      match hitsOf s moment (i + 1) rest c with
      | (.error e, c) => (.error e, c)
      | (.ok more, c) => (.ok (hits ++ more), c)

/-- The lines that hits are on, each once. -/
def placesOf : List Hit → List (List Step × Nat)
  | [] => []
  | h :: rest =>
    let places := placesOf rest
    if places.contains (h.path.steps, h.line) then places else (h.path.steps, h.line) :: places

/-- What hits say about a name: lines that refer to it, and the number of files they are in. -/
def referencesIn (hits : List Hit) : Evidence :=
  let places := placesOf hits
  let files := (places.map Prod.fst).eraseDups
  { foundInCodebase := !places.isEmpty
    referenceCount := places.length
    details := s!"{places.length} references in {files.length} files" }

/-- Searches for a name and looks at whether it is exported. -/
def references (s : Scope) (moment : Nat → Instant) (queries : List Query) (name : String)
    (c : SearchCache) : Except CheckError Evidence × SearchCache :=
  let (answer, c) := hitsOf s moment 0 queries c
  (answer.map fun hits => { referencesIn hits with isExported := isExported s name }, c)

/-! ## 4. The check -/

/-- Reads the file itself for a comment near the line. -/
def intent (s : Scope) (line : Nat) : Except CheckError Evidence :=
  match s.disk.readText s.file with
  | .error cause => .error (.read cause)
  | .ok source =>
    let found := hasIntentComment source.toList line
    .ok { hasIntent := found, details := if found then "intent comment near the handler" else "" }

/-- Checks one finding; `moment i` is when its i-th search runs. -/
def run (s : Scope) (moment : Nat → Instant) (job : Job) (c : SearchCache) :
    Except CheckError Evidence × SearchCache :=
  match job.kind with
  | .orphanedCode => references s moment [.call job.name, .word job.name] job.name c
  | .unusedVariable => references s moment [.word job.name] job.name c
  | .emptyCatch => (intent s job.line, c)
  | _ => (.ok {}, c)

end Check

end CodeAudit
