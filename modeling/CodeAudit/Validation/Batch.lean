import CodeAudit.Validation.Check

/-!
# Validating a list of findings

Every finding that can be checked becomes a job.  Jobs run side by side and may come back in any
order, fail, or not come back before the deadline; what comes back is *settled* into the list.
**Only a finding whose check came to a result is changed**, and every finding is counted once.
-/

namespace CodeAudit

/-- Counts of one batch. -/
structure ValidationSummary where
  validated : Nat := 0
  failed : Nat := 0
  timedOut : Nat := 0
  /-- Findings with no name to search for. -/
  skipped : Nat := 0
  deriving DecidableEq, Repr, Inhabited

/-- What a job came to, with the place of its finding. -/
abbrev Outcome := Nat × Except CheckError Evidence

/-- What a batch came to: the outcomes that were in time, or nothing at all. -/
inductive BatchResult where
  | ran (outcomes : List Outcome)
  | notStarted

namespace Job

/-- Whether the check of a kind needs the name that the message quotes. -/
def needsName : FindingKind → Bool
  | .orphanedCode | .unusedVariable => true
  | _ => false

/-- The job for the finding at a place, unless it needs a name and has none. -/
def ofFinding? (index : Nat) (f : Finding) : Option Job :=
  if needsName f.kind then f.quotedName?.map fun name => ⟨index, f.kind, f.line, name⟩
  else some ⟨index, f.kind, f.line, ""⟩

/-- The jobs for a list of findings. -/
def ofFindings (fs : List Finding) : List Job := fs.zipIdx.filterMap fun (f, i) => ofFinding? i f

end Job

namespace Validation

/-- Applies one outcome to the findings. -/
def apply (c : Confidences) (fs : List Finding) (o : Outcome) : List Finding :=
  match o.2 with
  | .ok e => fs.modify o.1 (Finding.rescore c e)
  | .error _ => fs

/-- The findings and the counts after a batch. -/
def settle (c : Confidences) (fs : List Finding) (jobs : List Job) :
    BatchResult → List Finding × ValidationSummary
  | .notStarted => (fs, { failed := jobs.length, skipped := fs.length - jobs.length })
  | .ran outcomes =>
    (outcomes.foldl (apply c) fs,
      { validated := outcomes.countP fun o => o.2.toBool
        failed := outcomes.countP fun o => !o.2.toBool
        timedOut := jobs.length - outcomes.length
        skipped := fs.length - jobs.length })

/-- Runs jobs one after another; `moment i k` is when the k-th search of job i runs. -/
def runJobs (s : Scope) (moment : Nat → Nat → Instant) :
    List Job → SearchCache → List Outcome × SearchCache
  | [], c => ([], c)
  | job :: rest, c =>
    let (result, c) := Check.run s (moment job.index) job c
    let (outcomes, c) := runJobs s moment rest c
    ((job.index, result) :: outcomes, c)

end Validation

/-- Checks findings against a project, with a cache of the searches. -/
structure Validator where
  settings : ValidationSettings
  confidences : Confidences
  searches : SearchCache

namespace Validator

def new (v : ValidationSettings) (c : Confidences) : Validator := ⟨v, c, .new v.searchCacheTtlSecs⟩

/-- The scope of a batch; a relative file is one of the root. -/
def scope (v : Validator) (d : Disk) (file root : Path) (language : String) : Scope where
  disk := d
  file := root.within file
  root
  language := Language.ofName? language
  filter := v.settings.pathFilter

/-- Validates findings.  A deadline of zero leaves no time for any check. -/
def validate (v : Validator) (d : Disk) (fs : List Finding) (file root : Path) (language : String)
    (moment : Nat → Nat → Instant) : (List Finding × ValidationSummary) × Validator :=
  let jobs := Job.ofFindings fs
  if v.settings.timeoutMs = 0 then (Validation.settle v.confidences fs jobs (.ran []), v)
  else
    let (outcomes, searches) := Validation.runJobs (v.scope d file root language) moment jobs v.searches
    (Validation.settle v.confidences fs jobs (.ran outcomes), { v with searches })

end Validator

end CodeAudit
